import Mathlib.Data.List.Induction
import NodeShader.Proofs.Wgsl.Types

/-!
Scoping and typing of fragment bodies, read off the statements themselves: a body that runs over
types declares no name twice, uses a name after its declaration only, and gives each name the type
that it is declared with.
-/

namespace NodeShader

namespace Expression

mutual

/-- The names in an expression; functions and components are none. -/
def names : Expression → List String
  | .literal _ => []
  | .name text => [text]
  | .negate operand => names operand
  | .binary _ left right => names left ++ names right
  | .call _ arguments => namesAll arguments
  | .member vector _ => names vector

def namesAll : List Expression → List String
  | [] => []
  | expression :: rest => names expression ++ namesAll rest

end

variable {V : Type} {domain : Domain V} {scope : String → Option V}

mutual

/-- Where an expression has a value, so have all its names. -/
theorem names_known : (expression : Expression) → ∀ {value},
    expression.eval domain scope = some value → ∀ text ∈ expression.names, (scope text).isSome
  | .literal _, _, _, _, used => by cases used
  | .name text, value, known, other, used => by
    rw [List.mem_singleton.1 used]
    exact Option.isSome_iff_exists.2 ⟨value, known⟩
  | .negate operand, _, known, text, used => by
    rcases Option.bind_eq_some_iff.1 known with ⟨_, inner, -⟩
    exact names_known operand inner text used
  | .binary _ left right, _, known, text, used => by
    rcases Option.bind_eq_some_iff.1 known with ⟨_, first, rest⟩
    rcases Option.bind_eq_some_iff.1 rest with ⟨_, second, -⟩
    rcases List.mem_append.1 used with used | used
    · exact names_known left first text used
    · exact names_known right second text used
  | .call _ arguments, _, known, text, used => by
    rcases Option.bind_eq_some_iff.1 known with ⟨_, inner, -⟩
    exact namesAll_known arguments inner text used
  | .member vector _, _, known, text, used => by
    rcases Option.bind_eq_some_iff.1 known with ⟨_, inner, -⟩
    exact names_known vector inner text used

theorem namesAll_known : (expressions : List Expression) → ∀ {values},
    evalAll domain scope expressions = some values →
      ∀ text ∈ namesAll expressions, (scope text).isSome
  | [], _, _, _, used => by cases used
  | expression :: rest, _, known, text, used => by
    rcases Option.bind_eq_some_iff.1 known with ⟨_, first, others⟩
    rcases Option.bind_eq_some_iff.1 others with ⟨_, second, -⟩
    rcases List.mem_append.1 used with used | used
    · exact names_known expression first text used
    · exact namesAll_known rest second text used

end

end Expression

namespace Statement

/-- The name that a statement declares, with its type. -/
def declared? : Statement → Option (String × ValueType)
  | .declare identifier value => some (identifier, value.type)
  | .output _ => none

/-- The expression of a statement as it is written. -/
def source : Statement → Code
  | .declare _ value => value.code
  | .output color => color

/-- The type that the expression of a statement must have. -/
def type : Statement → ValueType
  | .declare _ value => value.type
  | .output _ => .vec3f

/-- The names that statements declare, with their types. -/
def declarations (statements : List Statement) : List (String × ValueType) :=
  statements.filterMap declared?

/-- The types of the names that are known after some statements. -/
def typesAfter (statements : List Statement) (name : String) : Option ValueType :=
  if name = "uv" then some .vec2f
  else if name = "u_time" then some .f32
  else (declarations statements).lookup name

/-- A statement whose expression can be read and has its type, given the statements before it. -/
def IsTyped (before : List Statement) (statement : Statement) : Prop :=
  ∃ expression, Expression.read? statement.source.render = some expression ∧
    (∀ name ∈ expression.names, name = "uv" ∨ name = "u_time" ∨
      name ∈ (declarations before).map (·.1)) ∧
    expression.eval .types (typesAfter before) = some statement.type

/-- Bodies that declare no name twice and whose statements have their types. -/
structure AreTyped (statements : List Statement) : Prop where
  distinct : ((declarations statements).map (·.1)).Nodup
  typed : ∀ before statement after, statements = before ++ statement :: after →
    IsTyped before statement

theorem typesAfter_declared {statements : List Statement} {name : String} {type : ValueType}
    (known : typesAfter statements name = some type) :
    name = "uv" ∨ name = "u_time" ∨ name ∈ (declarations statements).map (·.1) := by
  unfold typesAfter at known
  split at known
  · next uv => exact .inl uv
  · split at known
    · next time => exact .inr (.inl time)
    · have present : ((declarations statements).lookup name).isSome := by rw [known]; rfl
      rcases List.lookup_isSome_iff.1 present with ⟨declaration, member, same⟩
      exact .inr (.inr (List.mem_map.2 ⟨declaration, member, (beq_iff_eq.1 same).symm⟩))

theorem typesAfter_none {statements : List Statement} {name : String}
    (unknown : typesAfter statements name = none) :
    name ≠ "uv" ∧ name ≠ "u_time" ∧ (declarations statements).lookup name = none := by
  unfold typesAfter at unknown
  split at unknown
  · cases unknown
  · next uv =>
    split at unknown
    · cases unknown
    · next time => exact ⟨uv, time, unknown⟩

/-- A statement that runs over types has its type. -/
theorem isTyped_of_run {before : List Statement} {statement : Statement}
    {store next : Store ValueType} (names : store.names = typesAfter before)
    (ran : statement.run .types store = some next) : IsTyped before statement := by
  obtain ⟨expression, read, type, typed, suits⟩ : ∃ expression,
      Expression.read? statement.source.render = some expression ∧ ∃ type,
        expression.eval .types (typesAfter before) = some type ∧ statement.type = type := by
    rw [← names]
    cases statement with
    | declare identifier value =>
      rcases run_declare_iff.1 ran with ⟨expression, read, type, typed, suits, -⟩
      exact ⟨expression, read, type, typed, of_decide_eq_true suits⟩
    | output color =>
      rcases run_output_iff.1 ran with ⟨expression, read, type, typed, suits, -⟩
      exact ⟨expression, read, type, typed, of_decide_eq_true suits⟩
  refine ⟨expression, read, fun name used => ?_, by rw [typed, suits]⟩
  rcases Option.isSome_iff_exists.1 (expression.names_known typed name used) with ⟨known, scope⟩
  exact typesAfter_declared scope

theorem declarations_concat (before : List Statement) (statement : Statement) :
    declarations (before ++ [statement]) = declarations before ++ statement.declared?.toList := by
  rw [declarations, List.filterMap_append]
  cases statement <;> rfl

/-- A statement that runs over types declares no name again, and adds its own to the types. -/
theorem names_of_run {before : List Statement} {statement : Statement}
    {store next : Store ValueType} (names : store.names = typesAfter before)
    (distinct : ((declarations before).map (·.1)).Nodup)
    (ran : statement.run .types store = some next) :
    next.names = typesAfter (before ++ [statement]) ∧
      ((declarations (before ++ [statement])).map (·.1)).Nodup := by
  rw [declarations_concat]
  cases statement with
  | output color =>
    rcases run_output_iff.1 ran with ⟨-, -, -, -, -, rfl⟩
    simp only [declared?, Option.toList_none, List.append_nil, names, distinct, and_true]
    funext name
    rw [typesAfter, typesAfter, declarations_concat]
    simp [declared?]
  | declare identifier value =>
    rcases run_declare_iff.1 ran with ⟨expression, -, type, -, suits, fresh, rfl⟩
    have same_type : value.type = type := of_decide_eq_true suits
    rw [names] at fresh
    rcases typesAfter_none fresh with ⟨position, time, undeclared⟩
    constructor
    · funext name
      have known : (declarations (before ++ [declare identifier value])).lookup name =
          if name = identifier then some type else (declarations before).lookup name := by
        rw [declarations_concat, List.lookup_append]
        split
        · next same =>
          rw [same, undeclared, ← same_type]
          simp [declared?]
        · next other => simp [declared?, List.lookup_cons, beq_eq_false_iff_ne.2 other]
      simp only [Store.declare, names, typesAfter, known]
      split
      · next same => rw [same, if_neg position, if_neg time]
      · rfl
    · have undeclared := List.lookup_eq_none_iff.1 undeclared
      simp only [declared?, Option.toList_some, List.map_append, List.map_cons, List.map_nil]
      refine List.nodup_append.2 ⟨distinct, by simp, ?_⟩
      intro name member other last same
      rw [List.mem_singleton.1 last] at same
      rcases List.mem_map.1 member with ⟨declaration, declared, rfl⟩
      have := undeclared declaration declared
      simp [same] at this

theorem names_of_runAll {statements : List Statement} {store : Store ValueType}
    (ran : (Store.start .types).runAll .types statements = some store) :
    store.names = typesAfter statements ∧ ((declarations statements).map (·.1)).Nodup := by
  induction statements using List.reverseRecOn generalizing store with
  | nil =>
    cases ran
    exact ⟨rfl, List.nodup_nil⟩
  | append_singleton before statement ih =>
    rcases Store.runAll_concat_iff.1 ran with ⟨next, ran, runs⟩
    rcases ih ran with ⟨names, distinct⟩
    exact names_of_run names distinct runs

/-- A body that runs over types is well typed. -/
theorem areTyped_of_runAll {statements : List Statement} {store : Store ValueType}
    (ran : (Store.start .types).runAll .types statements = some store) : AreTyped statements := by
  refine ⟨(names_of_runAll ran).2, ?_⟩
  intro before statement after same
  subst same
  rcases Store.runAll_append_iff.1 ran with ⟨partway, first, rest⟩
  rcases Store.runAll_cons_iff.1 rest with ⟨next, runs, -⟩
  exact isTyped_of_run (names_of_runAll first).1 runs

end Statement

end NodeShader
