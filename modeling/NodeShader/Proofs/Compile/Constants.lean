import NodeShader.Proofs.Compile.Draft
import NodeShader.Proofs.Compile.Fitting
import NodeShader.Proofs.Formula.Folding

/-!
The formulas of nodes: in the slots stand zeros, names of declared values, or means of their
components, so their code computes on no constants but for clamped vectors.
-/

namespace NodeShader

/-- Inputs that are names of declared values. -/
def Inputs.AreDeclared (inputs : Inputs) : Prop := ∀ slot x, inputs.find? slot = some x →
  ∃ identifier type, x = ⟨.name identifier, type⟩ ∧ Identifiers.IsProper identifier

/-- Names of declared values may stand as operands. -/
theorem Inputs.AreDeclared.fit {inputs : Inputs} (declared : inputs.AreDeclared) : inputs.Fit := by
  intro slot x found
  rcases declared slot x found with ⟨identifier, type, rfl, proper⟩
  exact Typed.fits_name proper.isName type

namespace Draft

variable {graph : Graph} {options : Options} {output node : Node} {order : Order}
  {draft next : Draft} {before after : List Node}

/-- A draft whose values are all bound to the names they were declared under. -/
def BindsNames (draft : Draft) : Prop := ∀ id x, draft.bindings.find? (some id) = some x →
  ∃ identifier type, x = ⟨.name identifier, type⟩ ∧ Identifiers.IsProper identifier

theorem BindsNames.add (binds : draft.BindsNames) (new : draft.identifiers.given? node.id = none)
    (added : Adds options output order draft node next) : next.BindsNames := by
  cases added with
  | skip => exact binds
  | color => exact binds
  | @value _ value identifier _ _ _ allocated =>
    have suits := (Identifiers.allocate_new new allocated).2.2.1
    intro id x found
    by_cases same : id = node.id
    · subst same
      rw [declared, Bindings.find?_bind_self] at found
      cases found
      exact ⟨identifier, value.type, rfl, suits.isProper⟩
    · rw [declared, Bindings.find?_bind_of_ne _ _ same] at found
      exact binds id x found

/-- On the way of a run all values are bound to their names. -/
theorem run_binds (sound : order.Sound graph) (split : order.nodes = before ++ after)
    (ran : (before.foldlM (Draft.add options output order) .empty).result = .ok draft) :
    Knows before draft ∧ draft.BindsNames := by
  have step (before : List Node) (node : Node) (after : List Node) (draft next : Draft)
      (split : order.nodes = before ++ node :: after) (holds : Knows before draft ∧ draft.BindsNames)
      (added : Adds options output order draft node next) :
      Knows (before ++ [node]) next ∧ next.BindsNames := by
    have new := new_id sound split
    exact ⟨holds.1.add new added, holds.2.add (holds.1.new new) added⟩
  have start : Knows [] .empty ∧ Draft.empty.BindsNames := ⟨.empty, by intro _ _ found; cases found⟩
  exact run_invariant (fun before draft => Knows before draft ∧ draft.BindsNames) step
    (by simpa using split) start ran

theorem BindsNames.declared (binds : draft.BindsNames) (order : Order) (node : Node) :
    (draft.inputs order node).AreDeclared := by
  intro slot x found
  rcases Option.bind_eq_some_iff.1 found with ⟨id, -, bound⟩
  exact binds id x bound

/-- Every identifier that was given is proper. -/
theorem BindsNames.proper (binds : draft.BindsNames) (knows : Knows before draft)
    {id identifier : String} (given : draft.identifiers.given? id = some identifier) :
    Identifiers.IsProper identifier := by
  obtain ⟨node, member, valued, rfl⟩ := (knows.given id).1 (by rw [given]; rfl)
  obtain ⟨bound, type, same, -, found⟩ := knows.bound node member valued
  obtain ⟨_, _, same', proper⟩ := binds node.id _ found
  cases same'
  rw [given] at same
  cases same
  exact proper

end Draft

/-- A finished draft binds ids to names of values alone. -/
theorem Graph.drafts_bind {graph : Graph} {options : Options} {output : Node} {draft : Draft}
    (drafted : graph.drafts options output = .ok draft) : draft.BindsNames :=
  (Draft.run_binds (graph.orderFor_sound output) (List.append_nil _).symm drafted).2

namespace Node

variable {inputs : Inputs}

theorem live_identifier {identifier : String} (proper : Identifiers.IsProper identifier) :
    (Code.name identifier).Live := by
  rcases proper with ⟨others, text, -⟩
  refine ⟨?_, rfl⟩
  change Expression.isRuntimeName identifier = true
  simp [Expression.isRuntimeName, text]

theorem folded_get (declared : inputs.AreDeclared) (slot : Nat) : (inputs.get slot .f32).Folded := by
  change (((inputs.find? slot).getD (.zero .f32)).convert .f32).Folded
  cases found : inputs.find? slot with
  | none => exact Typed.folded_literal (.zero false)
  | some x =>
    rcases declared slot x found with ⟨identifier, type, rfl, proper⟩
    exact ⟨.inl ((live_identifier proper).convert (.inl rfl)), .inl rfl⟩

theorem folded_environment (declared : inputs.AreDeclared) (slot : Slot) :
    ((environment inputs).get slot).Folded := by
  cases slot with
  | a => exact folded_get declared 0
  | b => exact folded_get declared 1
  | time => exact ⟨.inl ⟨show Expression.isRuntimeName "u_time" = true by decide, rfl⟩, .inl rfl⟩
  | uv => exact ⟨.inl ⟨show Expression.isRuntimeName "uv" = true by decide, rfl⟩, .inr rfl⟩

/-- In the code of a node's formula each operation has a value among its operands that is only known
when the shader runs, unless the formula clamps a vector between literals in the wrong order. -/
theorem compileScalar_folded {text : String} {formula : Formula} {x : Typed}
    (declared : inputs.AreDeclared) (parsed : Formula.parse text = .ok formula)
    (plain : formula.collapses (environment inputs) = false)
    (compiled : Formula.compileScalar (environment inputs) text = .ok x) :
    ∃ expression, Expression.read? x.text = some expression ∧ expression.isFolded = true := by
  exact Formula.isFolded_compileScalar (folded_environment declared)
    (fits_environment declared.fit) parsed plain compiled

/-- A pair is wired to the first input, and nothing to the second one. -/
def pairWired : Inputs := ⟨[some "p"], ⟨[("p", ⟨.name "n_p", .vec2f⟩)]⟩⟩

theorem pairWired_declared : pairWired.AreDeclared := by
  intro slot x found
  cases slot with
  | zero =>
    have first : pairWired.find? 0 = some ⟨.name "n_p", .vec2f⟩ := rfl
    rw [first] at found
    cases found
    exact ⟨"n_p", .vec2f, rfl, ['p'], rfl, List.forall_mem_singleton.2 rfl⟩
  | succ slot => cases found

/-- Divisions by an input that is a pair, and by one that is not there. -/
def quotients : String := "smoothstep(2, 1, uv.x) / a + 1 / b"

theorem pairWired_folded : ∃ x expression,
    Formula.compileScalar (environment pairWired) quotients = .ok x ∧
      Expression.read? x.text = some expression ∧ expression.isFolded = true := by
  have plain : (Formula.parse quotients).toOption.map (Formula.collapses (environment pairWired)) =
      some false := by decide +kernel
  have compiles : (Formula.compileScalar (environment pairWired) quotients).toOption.isSome = true := by
    decide +kernel
  cases parsed : Formula.parse quotients with
  | error error =>
    rw [parsed] at plain
    cases plain
  | ok formula =>
    rw [parsed] at plain
    cases compiled : Formula.compileScalar (environment pairWired) quotients with
    | error error =>
      rw [compiled] at compiles
      cases compiles
    | ok x =>
      rcases compileScalar_folded pairWired_declared parsed (Option.some.inj plain) compiled with
        ⟨expression, read, folded⟩
      exact ⟨x, expression, rfl, read, folded⟩

/-- Nothing is wired to the inputs. -/
def unwired : Inputs := ⟨[], .empty⟩

/-- A clamped pair is a constant that the shader would divide by. -/
theorem unwired_unfolded : unwired.AreDeclared ∧
    ((Formula.compileScalar (environment unwired) "1 / clamp(uv, 1, 0).x").toOption.map
      (·.text)) = some "(1.0 / (vec2f(0.0)).x)" ∧
    (Expression.read? "(1.0 / (vec2f(0.0)).x)").map Expression.isFolded = some false := by
  refine ⟨fun slot x found => ?_, by decide +kernel, by decide +kernel⟩
  cases found

end Node

end NodeShader
