import NodeShader.Proofs.Compile.Draft
import NodeShader.Proofs.Formula.Typing

/-!
Strict compilations: what they reject, and that they leave alone what they do not reject.
-/

namespace NodeShader

/-- The type of what stands in a slot of a node's formula. -/
def Slot.type : Slot → ValueType
  | .uv => .vec2f
  | .a | .b | .time => .f32

namespace Node

variable {node other : Node} {inputs : Inputs} {options : Options}

theorem environment_type (inputs : Inputs) :
    (fun slot => ((environment inputs).get slot).type) = Slot.type := by
  funext slot
  cases slot <;> rfl

/-- The text of a formula without the blanks around it, if there is more to it than blanks. -/
def writtenFormula? (node : Node) : Option String := do
  let text := String.ofList (trimBlanks (← node.textParam? "expr").toList)
  if text.isEmpty then none else some text

theorem formulaText_eq (node : Node) : node.formulaText = node.writtenFormula?.getD "0" := by
  unfold formulaText writtenFormula?
  cases node.textParam? "expr" with
  | none => decide +kernel
  | some text =>
    simp only [Option.getD_some, Option.bind_eq_bind, Option.bind_some]
    split <;> rfl

/-- A formula that has no code: its text is none, or it takes a component of a scalar. -/
def BadFormula (node : Node) : Prop :=
  node.kind = .expr ∧ ∃ text, node.writtenFormula? = some text ∧
    ((∃ error, Formula.parse text = .error error) ∨
      ∃ formula, Formula.parse text = .ok formula ∧
        ∀ inputs, ∃ error, Formula.lower (environment inputs) formula = .error error)

/-- Nodes whose values have the same identifier. -/
def Clash (node other : Node) : Prop :=
  node.kind.isOutput = false ∧ other.kind.isOutput = false ∧ sanitized node.id = sanitized other.id

theorem Clash.symm (clash : node.Clash other) : other.Clash node :=
  ⟨clash.2.1, clash.1, clash.2.2.symm⟩

/-- The formula that stands for a missing one has code. -/
theorem compileScalar_zero (inputs : Inputs) :
    ¬ ∃ error, Formula.compileScalar (environment inputs) "0" = .error error := by
  rw [Formula.compileScalar_error_iff, environment_type]
  have typed : (Formula.parse "0").toOption.bind (Formula.type? Slot.type) = some .f32 := by
    decide +kernel
  intro fails
  rcases fails with ⟨error, failed⟩ | ⟨formula, parsed, untyped⟩
  · rw [failed] at typed
    cases typed
  · rw [parsed] at typed
    change formula.type? Slot.type = some .f32 at typed
    rw [untyped] at typed
    cases typed

/-- Whether a formula has code does not depend on the inputs of its node. -/
theorem badFormula_iff (kind : node.kind = .expr) (inputs : Inputs) :
    node.BadFormula ↔
      ∃ error, Formula.compileScalar (environment inputs) node.formulaText = .error error := by
  rw [formulaText_eq, BadFormula]
  cases node.writtenFormula? with
  | none =>
    refine iff_of_false ?_ (compileScalar_zero inputs)
    intro given
    rcases given with ⟨-, text, written, -⟩
    cases written
  | some text =>
    have : Nonempty Inputs := ⟨inputs⟩
    simp only [kind, true_and, Option.some.injEq, exists_eq_left', Option.getD_some,
      Formula.compileScalar_error_iff, Formula.lower_error_iff, environment_type, forall_const]

theorem formula_error_iff :
    (∃ error, (node.formula inputs options).result = .error error) ↔
      options.strictExpressions = true ∧
        ∃ error, Formula.compileScalar (environment inputs) node.formulaText = .error error := by
  unfold formula
  cases Formula.compileScalar (environment inputs) node.formulaText with
  | ok value => simp
  | error error =>
    cases options.strictExpressions with
    | true => simp
    | false =>
      exact iff_of_false (not_error_of_ok rfl) (by simp)

/-- A node is rejected for its formula, and for nothing else. -/
theorem compile_error_iff :
    (∃ error, (node.compile inputs options).result = .error error) ↔
      options.strictExpressions = true ∧ node.BadFormula := by
  by_cases kind : node.kind = .expr
  · rw [badFormula_iff kind inputs, ← formula_error_iff]
    simp only [compile, kind, Outcome.result_bind, Outcome.result_pure]
    exact except_map_error_iff Emission.value
  · refine iff_of_false ?_ fun bad => kind bad.2.1
    intro fails
    rcases fails with ⟨error, failed⟩
    unfold compile at failed
    split at failed
    case h_4 expr => exact kind expr
    all_goals cases failed

theorem formula_lenient {value : Typed} (made : (node.formula inputs options).result = .ok value) :
    (node.formula inputs .lenient).result = .ok value := by
  unfold formula at made ⊢
  split at made
  · exact made
  · split at made
    · cases made
    · exact made

theorem compile_lenient {emission : Emission}
    (compiled : (node.compile inputs options).result = .ok emission) :
    (node.compile inputs .lenient).result = .ok emission := by
  cases kind : node.kind <;> simp only [compile, kind] at compiled ⊢
  case expr =>
    rw [Outcome.result_bind] at compiled ⊢
    rcases except_bind_eq_ok.1 compiled with ⟨value, made, compiled⟩
    exact except_bind_eq_ok.2 ⟨value, formula_lenient made, compiled⟩
  all_goals exact compiled

end Node

namespace Draft

variable {graph : Graph} {options : Options} {output node : Node} {order : Order}
  {draft next : Draft} {before after : List Node}

theorem add_lenient (added : (Draft.add options output order draft node).result = .ok next) :
    (Draft.add .lenient output order draft node).result = .ok next := by
  unfold add at added ⊢
  split at added
  · next other =>
    rw [if_pos other]
    exact added
  · next other =>
    rw [if_neg other]
    rw [Outcome.result_bind] at added ⊢
    rcases except_bind_eq_ok.1 added with ⟨emission, compiled, added⟩
    refine except_bind_eq_ok.2 ⟨emission, Node.compile_lenient compiled, ?_⟩
    cases emission with
    | color code => exact added
    | value value =>
      simp only [declare, Outcome.result_bind] at added ⊢
      rcases except_bind_eq_ok.1 added with ⟨given, allocated, added⟩
      exact except_bind_eq_ok.2 ⟨given, Identifiers.allocate_lenient allocated, added⟩

/-- With strict identifiers, the identifiers that are owned are the bare ones of the values. -/
def Bare (options : Options) (before : List Node) (draft : Draft) : Prop :=
  options.strictIdentifiers = true → ∀ identifier, (draft.identifiers.owner? identifier).isSome ↔
    ∃ node ∈ before, node.kind.isOutput = false ∧ Identifiers.base node.id = identifier

theorem Bare.add (bare : Bare options before draft) (new : draft.identifiers.given? node.id = none)
    (added : Adds options output order draft node next) : Bare options (before ++ [node]) next := by
  intro strict identifier
  have bare := bare strict identifier
  have sink_case (sink : node.kind.isOutput = true) :
      (draft.identifiers.owner? identifier).isSome ↔
        ∃ other ∈ before ++ [node], other.kind.isOutput = false ∧
          Identifiers.base other.id = identifier := by
    rw [bare]
    simp [or_and_right, exists_or, sink]
  cases added with
  | skip sink => exact sink_case sink
  | color sink => exact sink_case sink
  | value proper compiled type allocated =>
    rcases Identifiers.allocate_new new allocated with ⟨-, rfl, -, base⟩
    simp only [declared, Identifiers.owner?_give, List.mem_append, List.mem_singleton,
      or_and_right, exists_or, exists_eq_left, proper, true_and, ← bare, base strict]
    split
    · next same => simp [same]
    · next other => simp [Ne.symm other]

/-- A node is rejected for its formula or for an identifier that an earlier node has. -/
theorem add_error_iff_of_bare (bare : Bare options before draft)
    (new : draft.identifiers.given? node.id = none) :
    (∃ error, (Draft.add options output order draft node).result = .error error) ↔
      options.strictExpressions = true ∧ node.BadFormula ∨
        options.strictIdentifiers = true ∧ ∃ other ∈ before, other.Clash node := by
  rw [add_error_iff, Node.compile_error_iff, Identifiers.allocate_error_iff new]
  apply or_congr Iff.rfl
  constructor
  · intro reason
    rcases reason with ⟨proper, strict, owned⟩
    rcases (bare strict _).1 owned with ⟨other, member, proper', same⟩
    exact ⟨strict, other, member, proper', proper, String.append_right_inj _ |>.1 same⟩
  · intro reason
    rcases reason with ⟨strict, other, member, proper', proper, same⟩
    refine ⟨proper, strict, (bare strict _).2 ⟨other, member, proper', ?_⟩⟩
    rw [Identifiers.base, same, Identifiers.base]

end Draft

namespace Graph

variable {graph : Graph} {options : Options} {output : Node}

/-- Why the compilation for an output is rejected: a needed formula is bad and formulas are strict,
or two needed values have the same identifier and identifiers are strict. -/
def Rejects (graph : Graph) (options : Options) (output : Node) : Prop :=
  (options.strictExpressions = true ∧ ∃ node ∈ (graph.orderFor output).nodes, node.BadFormula) ∨
    options.strictIdentifiers = true ∧ ∃ node ∈ (graph.orderFor output).nodes,
      ∃ other ∈ (graph.orderFor output).nodes, node ≠ other ∧ node.Clash other

theorem drafts_lenient {draft : Draft} (drafted : graph.drafts options output = .ok draft) :
    graph.drafts .lenient output = .ok draft := by
  unfold drafts at drafted ⊢
  rw [Outcome.result_foldlM] at drafted ⊢
  exact except_foldlM_mono (fun _ _ _ => Draft.add_lenient) drafted

/-- At its turn a node is rejected for its formula or for an earlier node's identifier. -/
theorem turn_error_iff {before after : List Node} {node : Node} {draft : Draft}
    (split : (graph.orderFor output).nodes = before ++ node :: after)
    (ran : (before.foldlM (Draft.add options output (graph.orderFor output)) .empty).result =
      .ok draft) :
    (∃ error, (Draft.add options output (graph.orderFor output) draft node).result = .error error) ↔
      options.strictExpressions = true ∧ node.BadFormula ∨
        options.strictIdentifiers = true ∧ ∃ other ∈ before, other.Clash node := by
  have sound := graph.orderFor_sound output
  have start : Draft.Knows [] .empty ∧ Draft.Bare options [] .empty :=
    ⟨.empty, fun _ identifier => by simp [Draft.empty, Identifiers.empty, Identifiers.owner?]⟩
  have step (before : List Node) (node : Node) (after : List Node) (draft next : Draft)
      (split : (graph.orderFor output).nodes = before ++ node :: after)
      (both : Draft.Knows before draft ∧ Draft.Bare options before draft)
      (added : Draft.Adds options output (graph.orderFor output) draft node next) :
      Draft.Knows (before ++ [node]) next ∧ Draft.Bare options (before ++ [node]) next := by
    have new := Draft.new_id sound split
    exact ⟨both.1.add new added, both.2.add (both.1.new new) added⟩
  have whole : (graph.orderFor output).nodes = [] ++ before ++ node :: after := split
  obtain ⟨knows, bare⟩ := Draft.run_invariant
    (fun before draft => Draft.Knows before draft ∧ Draft.Bare options before draft)
    step whole start ran
  exact Draft.add_error_iff_of_bare bare (knows.new (Draft.new_id sound split))

theorem drafts_error_iff :
    (∃ error, graph.drafts options output = .error error) ↔ graph.Rejects options output := by
  have sound := graph.orderFor_sound output
  unfold drafts
  rw [Outcome.result_foldlM]
  constructor
  · intro fails
    rcases fails with ⟨error, failed⟩
    rcases except_foldlM_error failed with ⟨before, node, after, partway, split, ran, failed⟩
    rw [← Outcome.result_foldlM] at ran
    rcases (turn_error_iff split ran).1 ⟨error, failed⟩ with
      ⟨strict, bad⟩ | ⟨strict, other, member, clash⟩
    · exact .inl ⟨strict, node, by simp [split], bad⟩
    · refine .inr ⟨strict, other, by simp [split, member], node, by simp [split], ?_, clash⟩
      intro same
      subst same
      exact Draft.new_id sound split other member rfl
  · intro reason
    by_contra accepted
    obtain ⟨draft, drafted⟩ : ∃ draft, (graph.orderFor output).nodes.foldlM (fun draft node =>
        (Draft.add options output (graph.orderFor output) draft node).result) .empty =
          .ok draft := by
      cases ran : (graph.orderFor output).nodes.foldlM (fun draft node =>
        (Draft.add options output (graph.orderFor output) draft node).result) .empty with
      | error error => exact absurd ⟨error, ran⟩ accepted
      | ok draft => exact ⟨draft, rfl⟩
    -- what went through had no reason to be rejected at its turn
    have innocent (before : List Node) (node : Node) (after : List Node)
        (split : (graph.orderFor output).nodes = before ++ node :: after) :
        ¬ (options.strictExpressions = true ∧ node.BadFormula ∨
          options.strictIdentifiers = true ∧ ∃ other ∈ before, other.Clash node) := by
      rw [split] at drafted
      rcases except_foldlM_ok drafted with ⟨partway, next, ran, added⟩
      rw [← Outcome.result_foldlM] at ran
      rw [← turn_error_iff split ran]
      intro fails
      rcases fails with ⟨error, failed⟩
      rw [added] at failed
      cases failed
    rcases reason with ⟨strict, node, member, bad⟩ | ⟨strict, node, member, other, member', ne, clash⟩
    · rcases List.append_of_mem member with ⟨before, after, split⟩
      exact innocent before node after split (.inl ⟨strict, bad⟩)
    · rcases List.append_of_mem member with ⟨before, after, split⟩
      rw [split] at member'
      rcases List.mem_append.1 member' with earlier | later
      · exact innocent before node after split (.inr ⟨strict, other, earlier, clash.symm⟩)
      · have later := (List.mem_cons.1 later).resolve_left (Ne.symm ne)
        rcases List.append_of_mem later with ⟨middle, rest, rfl⟩
        refine innocent (before ++ node :: middle) other rest (by simp [split]) (.inr ?_)
        exact ⟨strict, node, by simp, clash⟩

theorem compile_error_iff :
    (∃ error, (graph.compile options).result = .error error) ↔
      ∃ output, graph.output? = some output ∧ graph.Rejects options output := by
  rw [compile_result]
  cases graph.output? with
  | none => simp
  | some output =>
    simp only [Option.some.injEq, exists_eq_left']
    split
    · next empty =>
      rw [List.isEmpty_iff] at empty
      simp [Rejects, empty]
    · rw [← drafts_error_iff]
      exact except_map_error_iff fun draft : Draft => Shader.body draft.statements

theorem compile_lenient {shader : Shader} (compiled : (graph.compile options).result = .ok shader) :
    (graph.compile .lenient).result = .ok shader := by
  revert compiled
  rw [compile_result, compile_result]
  cases graph.output? with
  | none => exact id
  | some output =>
    dsimp only
    split
    · exact id
    · intro compiled
      rcases except_bind_eq_ok.1 compiled with ⟨draft, drafted, same⟩
      exact except_bind_eq_ok.2 ⟨draft, drafts_lenient drafted, same⟩

/-- By default nothing is rejected. -/
theorem compile_shader (graph : Graph) : (graph.compile .lenient).result = .ok graph.shader := by
  cases compiled : (graph.compile .lenient).result with
  | error error =>
    rcases compile_error_iff.1 ⟨error, compiled⟩ with ⟨output, -, reason⟩
    rcases reason with ⟨strict, -⟩ | ⟨strict, -⟩ <;> cases strict
  | ok shader =>
    rw [Graph.shader, compiled]
    rfl

/-- Options only reject: a graph that compiles with them has the text that it has without them, it
does not compile just when there is a reason among its needed nodes, and by default never. -/
theorem compile_only_rejects (graph : Graph) (options : Options) :
    (∀ shader, (graph.compile options).result = .ok shader → shader.text = graph.shader.text) ∧
      ((∃ error, (graph.compile options).result = .error error) ↔
        ∃ output, graph.output? = some output ∧ graph.Rejects options output) ∧
      (graph.compile .lenient).result = .ok graph.shader := by
  refine ⟨fun shader compiled => ?_, compile_error_iff, compile_shader graph⟩
  have always := compile_shader graph
  rw [compile_lenient compiled] at always
  cases always
  rfl

end Graph

end NodeShader
