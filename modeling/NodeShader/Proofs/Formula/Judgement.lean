import NodeShader.Proofs.Formula.Arity
import NodeShader.Proofs.Formula.Places

/-!
The types of formulas as rules. Lowering a formula that was read succeeds exactly if all parts of the
formula have types, gives code of the formula's type whatever was folded on the way, and never reads
past the end of a list.
-/

namespace NodeShader

namespace ValueType

/-- The type with the most components among some types. -/
def IsWidest (types : List ValueType) (type : ValueType) : Prop :=
  type ∈ types ∧ ∀ other ∈ types, other.components ≤ type.components

variable {types : List ValueType} {s t : ValueType}

theorem components_injective (same : s.components = t.components) : s = t := by
  cases s <;> cases t <;> first | rfl | cases same

theorem IsWidest.unique (widest : IsWidest types s) (widest' : IsWidest types t) : s = t := by
  apply components_injective
  exact Nat.le_antisymm (widest'.2 s widest.1) (widest.2 t widest'.1)

theorem wider_cases (s t : ValueType) :
    s.wider t = s ∧ t.components ≤ s.components ∨ s.wider t = t ∧ s.components ≤ t.components := by
  cases s <;> cases t <;> decide

theorem isWidest_foldl (start : ValueType) (types : List ValueType) :
    IsWidest (start :: types) (types.foldl wider start) := by
  induction types generalizing start with
  | nil => simp [IsWidest]
  | cons type types ih =>
    have ⟨member, most⟩ := ih (start.wider type)
    rw [List.forall_mem_cons] at most
    rw [IsWidest, List.foldl_cons, List.forall_mem_cons, List.forall_mem_cons]
    rcases start.wider_cases type with ⟨same, less⟩ | ⟨same, less⟩ <;> rw [same] at member most ⊢
    · exact ⟨List.mem_cons.2 ((List.mem_cons.1 member).imp_right (List.mem_cons_of_mem type)),
        most.1, less.trans most.1, most.2⟩
    · exact ⟨List.mem_cons_of_mem start member, less.trans most.1, most⟩

theorem isWidest_widest (some_type : types ≠ []) : IsWidest types (widest types) := by
  obtain ⟨type, rest, rfl⟩ := List.exists_cons_of_ne_nil some_type
  have least : ValueType.f32.wider type = type := by cases type <;> rfl
  have folded : widest (type :: rest) = rest.foldl wider type :=
    congrArg (rest.foldl wider) least
  rw [folded]
  exact isWidest_foldl type rest

end ValueType

/-- The types of what stands in the slots. -/
def Environment.types (environment : Environment) (slot : Slot) : ValueType :=
  (environment.get slot).type

namespace Formula

open ValueType (IsWidest)

mutual

/-- The type of a formula in slots of given types. What a function that yields a scalar is given does
not matter for its type. -/
inductive HasType (slots : Slot → ValueType) : Formula → ValueType → Prop where
  | number (value : F32) : HasType slots (.number value) .f32
  | pi : HasType slots .pi .f32
  | slot (name : Slot) : HasType slots (.slot name) (slots name)
  | negate {operand : Formula} {type : ValueType} (inner : HasType slots operand type) :
      HasType slots (.negate operand) type
  | binary (operator : Operator) {left right : Formula} {s t type : ValueType}
      (first : HasType slots left s) (second : HasType slots right t)
      (widest : IsWidest [s, t] type) : HasType slots (.binary operator left right) type
  | measure {function : Builtin} (scalar : function.yieldsScalar = true)
      (arguments : List Formula) : HasType slots (.call function arguments) .f32
  | call {function : Builtin} {arguments : List Formula} {types : List ValueType}
      {type : ValueType} (spread : function.yieldsScalar = false)
      (given : HaveTypes slots arguments types) (widest : IsWidest types type) :
      HasType slots (.call function arguments) type
  | component {vector : Formula} {type : ValueType} (inner : HasType slots vector type)
      (wide : type ≠ .f32) (first : Axis) : HasType slots (.swizzle vector (.one first)) .f32
  | components {vector : Formula} {type : ValueType} (inner : HasType slots vector type)
      (wide : type ≠ .f32) (first second : Axis) :
      HasType slots (.swizzle vector (.two first second)) .vec2f

inductive HaveTypes (slots : Slot → ValueType) : List Formula → List ValueType → Prop where
  | nil : HaveTypes slots [] []
  | cons {argument : Formula} {type : ValueType} {rest : List Formula} {types : List ValueType}
      (first : HasType slots argument type) (others : HaveTypes slots rest types) :
      HaveTypes slots (argument :: rest) (type :: types)

end

mutual

/-- A formula and all the formulas in it. -/
def parts : Formula → List Formula
  | .number value => [.number value]
  | .pi => [.pi]
  | .slot name => [.slot name]
  | .negate operand => .negate operand :: parts operand
  | .binary operator left right => .binary operator left right :: (parts left ++ parts right)
  | .call function arguments => .call function arguments :: partsAll arguments
  | .swizzle vector components => .swizzle vector components :: parts vector

def partsAll : List Formula → List Formula
  | [] => []
  | argument :: rest => parts argument ++ partsAll rest

end

variable {slots : Slot → ValueType}

mutual

/-- A formula has no more than one type. -/
theorem HasType.unique {formula : Formula} {s t : ValueType} :
    formula.HasType slots s → formula.HasType slots t → s = t
  | .number _, .number _ | .pi, .pi | .slot _, .slot _ => rfl
  | .negate inner, .negate inner' => inner.unique inner'
  | .binary _ first second widest, .binary _ first' second' widest' => by
    cases first.unique first'
    cases second.unique second'
    exact widest.unique widest'
  | .measure _ _, .measure _ _ => rfl
  | .measure scalar _, .call spread _ _ | .call spread _ _, .measure scalar _ => by
    rw [scalar] at spread
    cases spread
  | .call _ given widest, .call _ given' widest' => by
    cases given.unique given'
    exact widest.unique widest'
  | .component _ _ _, .component _ _ _ => rfl
  | .components _ _ _ _, .components _ _ _ _ => rfl

theorem HaveTypes.unique {formulas : List Formula} {types types' : List ValueType} :
    HaveTypes slots formulas types → HaveTypes slots formulas types' → types = types'
  | .nil, .nil => rfl
  | .cons first others, .cons first' others' => by
    cases first.unique first'
    cases others.unique others'
    rfl

end

theorem arity_ne_zero (function : Builtin) : function.arity ≠ 0 := by
  cases function <;> decide

mutual

/-- The type that is computed for a formula is its type by the rules, and all its parts have one. -/
theorem hasType_of_type? : (formula : Formula) → formula.Saturated → ∀ {type},
    formula.type? slots = some type →
      formula.HasType slots type ∧ ∀ part ∈ formula.parts, ∃ type, part.HasType slots type
  | .number value, _, _, known => by
    cases known
    exact ⟨.number value, by simpa [parts] using ⟨_, .number value⟩⟩
  | .pi, _, _, known => by
    cases known
    exact ⟨.pi, by simpa [parts] using ⟨_, .pi⟩⟩
  | .slot name, _, _, known => by
    cases known
    exact ⟨.slot name, by simpa [parts] using ⟨_, .slot name⟩⟩
  | .negate operand, saturated, _, known => by
    obtain ⟨typed, inner⟩ := hasType_of_type? operand saturated known
    exact ⟨.negate typed, List.forall_mem_cons.2 ⟨⟨_, .negate typed⟩, inner⟩⟩
  | .binary operator left right, ⟨saturated, saturated'⟩, _, known => by
    simp only [type?, Option.bind_eq_bind, Option.bind_eq_some_iff] at known
    obtain ⟨s, known, t, known', same⟩ := known
    cases same
    obtain ⟨first, inner⟩ := hasType_of_type? left saturated known
    obtain ⟨second, inner'⟩ := hasType_of_type? right saturated' known'
    have typed := HasType.binary operator first second (ValueType.isWidest_widest nofun)
    exact ⟨typed, List.forall_mem_cons.2 ⟨⟨_, typed⟩, List.forall_mem_append.2 ⟨inner, inner'⟩⟩⟩
  | .call function arguments, ⟨arity, saturated⟩, type, known => by
    simp only [type?, Option.bind_eq_bind, Option.bind_eq_some_iff] at known
    obtain ⟨types, known, same⟩ := known
    cases same
    obtain ⟨given, inner⟩ := haveTypes_of_types? arguments saturated known
    have some_type : types ≠ [] := by
      intro nothing
      subst nothing
      cases given
      exact arity_ne_zero function arity.symm
    have typed : (call function arguments).HasType slots
        (if function.yieldsScalar then .f32 else ValueType.widest types) := by
      cases yields : function.yieldsScalar with
      | true => exact .measure yields arguments
      | false => exact .call yields given (ValueType.isWidest_widest some_type)
    exact ⟨typed, List.forall_mem_cons.2 ⟨⟨_, typed⟩, inner⟩⟩
  | .swizzle vector components, saturated, _, known => by
    simp only [type?, Option.bind_eq_bind, Option.bind_eq_some_iff] at known
    obtain ⟨type, known, selected⟩ := known
    obtain ⟨inner, others⟩ := hasType_of_type? vector saturated known
    split at selected
    · cases selected
    · next wide =>
      cases selected
      have typed : (swizzle vector components).HasType slots components.type := by
        cases components with
        | one first => exact .component inner wide first
        | two first second => exact .components inner wide first second
      exact ⟨typed, List.forall_mem_cons.2 ⟨⟨_, typed⟩, others⟩⟩

theorem haveTypes_of_types? : (formulas : List Formula) → AllSaturated formulas → ∀ {types},
    types? slots formulas = some types →
      HaveTypes slots formulas types ∧ ∀ part ∈ partsAll formulas, ∃ type, part.HasType slots type
  | [], _, _, known => by
    cases known
    exact ⟨.nil, by simp [partsAll]⟩
  | formula :: rest, ⟨saturated, saturated'⟩, _, known => by
    simp only [types?, Option.bind_eq_bind, Option.bind_eq_some_iff] at known
    obtain ⟨type, known, types, known', same⟩ := known
    cases same
    obtain ⟨first, inner⟩ := hasType_of_type? formula saturated known
    obtain ⟨others, inner'⟩ := haveTypes_of_types? rest saturated' known'
    exact ⟨.cons first others, List.forall_mem_append.2 ⟨inner, inner'⟩⟩

end

mutual

/-- A type is computed for a formula all of whose parts have types by the rules. -/
theorem exists_type?_of_parts : (formula : Formula) → formula.Saturated →
    (∀ part ∈ formula.parts, ∃ type, part.HasType slots type) →
      ∃ type, formula.type? slots = some type
  | .number _, _, _ => ⟨_, rfl⟩
  | .pi, _, _ => ⟨_, rfl⟩
  | .slot _, _, _ => ⟨_, rfl⟩
  | .negate operand, saturated, typed =>
    exists_type?_of_parts operand saturated (List.forall_mem_cons.1 typed).2
  | .binary operator left right, ⟨saturated, saturated'⟩, typed => by
    have inner := List.forall_mem_append.1 (List.forall_mem_cons.1 typed).2
    obtain ⟨s, known⟩ := exists_type?_of_parts left saturated inner.1
    obtain ⟨t, known'⟩ := exists_type?_of_parts right saturated' inner.2
    exact ⟨ValueType.widest [s, t], by rw [type?, known, known']; rfl⟩
  | .call function arguments, ⟨_, saturated⟩, typed => by
    obtain ⟨types, known⟩ :=
      exists_types?_of_parts arguments saturated (List.forall_mem_cons.1 typed).2
    exact ⟨if function.yieldsScalar then .f32 else ValueType.widest types, by rw [type?, known]; rfl⟩
  | .swizzle vector components, saturated, typed => by
    obtain ⟨whole, inner⟩ := List.forall_mem_cons.1 typed
    obtain ⟨type, known⟩ := exists_type?_of_parts vector saturated inner
    have vector_type := (hasType_of_type? vector saturated known).1
    obtain ⟨_, selected⟩ := whole
    have wide : type ≠ .f32 := by
      cases selected with
      | component inner wide => rwa [vector_type.unique inner]
      | components inner wide => rwa [vector_type.unique inner]
    refine ⟨components.type, ?_⟩
    rw [type?, known]
    exact if_neg wide

theorem exists_types?_of_parts : (formulas : List Formula) → AllSaturated formulas →
    (∀ part ∈ partsAll formulas, ∃ type, part.HasType slots type) →
      ∃ types, types? slots formulas = some types
  | [], _, _ => ⟨[], rfl⟩
  | formula :: rest, ⟨saturated, saturated'⟩, typed => by
    have inner := List.forall_mem_append.1 typed
    obtain ⟨type, known⟩ := exists_type?_of_parts formula saturated inner.1
    obtain ⟨types, known'⟩ := exists_types?_of_parts rest saturated' inner.2
    exact ⟨type :: types, by rw [types?, known, known']; rfl⟩

end

/-- A formula that was read has code exactly if each of its parts has a type. The code then has the
type of the formula, however much of it was folded, and no list of arguments or values is read past
its end on the way. -/
theorem lower_obeys_types (environment : Environment) {text : String} {formula : Formula}
    (parsed : parse text = .ok formula) :
    ((∃ x, lower environment formula = .ok x) ↔
        ∀ part ∈ formula.parts, ∃ type, part.HasType environment.types type) ∧
      (∀ x, lower environment formula = .ok x →
        ∀ type, formula.HasType environment.types type ↔ type = x.type) ∧
      lowerByPlace environment formula = (lower environment formula).mapError .refused := by
  have saturated := parse_saturated parsed
  have computed := lower_type environment formula
  change _ = formula.type? environment.types at computed
  have typed {x : Typed} (lowered : lower environment formula = .ok x) :
      formula.HasType environment.types x.type ∧
        ∀ part ∈ formula.parts, ∃ type, part.HasType environment.types type := by
    rw [lowered] at computed
    exact hasType_of_type? formula saturated computed.symm
  refine ⟨⟨fun given => ?_, fun given => ?_⟩, fun x lowered type => ?_,
    lowerByPlace_eq environment formula saturated⟩
  · obtain ⟨x, lowered⟩ := given
    exact (typed lowered).2
  · obtain ⟨type, known⟩ := exists_type?_of_parts formula saturated given
    rw [known] at computed
    cases lowered : lower environment formula with
    | ok x => exact ⟨x, rfl⟩
    | error error =>
      rw [lowered] at computed
      cases computed
  · constructor
    · exact fun other => other.unique (typed lowered).1
    · rintro rfl
      exact (typed lowered).1

/-- A color and a negative literal where scalars are expected. -/
def strange : Environment where
  a := ⟨.name "n_a", .vec3f⟩
  b := ⟨.name "-0.5", .f32⟩
  time := ⟨.name "u_time", .f32⟩
  uv := ⟨.name "uv", .vec2f⟩

/-- A measure of pairs, one of which is clamped between bounds in the wrong order. -/
def gap : String := "distance(a.xy, clamp(uv, 1, b)) / -b"

theorem gap_obeys_types : ∃ formula x, parse gap = .ok formula ∧ lower strange formula = .ok x ∧
    (∀ part ∈ formula.parts, ∃ type, part.HasType strange.types type) ∧
    (∀ type, formula.HasType strange.types type ↔ type = x.type) ∧
    lowerByPlace strange formula = .ok x := by
  obtain ⟨formula, x, parsed, lowered⟩ : ∃ formula x, parse gap = .ok formula ∧
      lower strange formula = .ok x := exists_lowered (by decide +kernel)
  obtain ⟨coded, typed, placed⟩ := lower_obeys_types strange parsed
  refine ⟨formula, x, parsed, lowered, coded.1 ⟨x, lowered⟩, typed x lowered, ?_⟩
  rw [placed, lowered]
  rfl

end Formula

end NodeShader
