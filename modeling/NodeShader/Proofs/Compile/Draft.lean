import NodeShader.Compile.Shader
import NodeShader.Proofs.Compile.Identifiers
import NodeShader.Proofs.Compile.Inputs
import NodeShader.Proofs.Graph.Search

/-!
Writing a fragment body: what one node adds to a draft, and what a draft knows of the nodes that
were added to it.
-/

namespace NodeShader

namespace Draft

variable {options : Options} {output node : Node} {order : Order} {draft next final : Draft}
  {before after : List Node}

/-- The inputs of a node while the draft has these bindings. -/
def inputs (draft : Draft) (order : Order) (node : Node) : Inputs :=
  ⟨order.slots node, draft.bindings⟩

/-- The draft with the value of a node declared under an identifier. -/
def declared (draft : Draft) (identifiers : Identifiers) (id identifier : String) (value : Typed) :
    Draft where
  identifiers := identifiers
  bindings := draft.bindings.bind id ⟨.name identifier, value.type⟩
  statements := draft.statements ++ [.declare identifier value]

/-- All that adding a node can do: skip an output, set the color, or declare a value. -/
inductive Adds (options : Options) (output : Node) (order : Order) (draft : Draft) (node : Node) :
    Draft → Prop where
  | skip (sink : node.kind.isOutput = true) (other : node.id ≠ output.id) :
      Adds options output order draft node draft
  | color (sink : node.kind.isOutput = true) (selected : node.id = output.id) :
      Adds options output order draft node
        (draft.append (.output ((draft.inputs order node).get 0 .vec3f).code))
  | value (proper : node.kind.isOutput = false) {value : Typed} {identifier : String}
      {identifiers : Identifiers}
      (compiled : (node.compile (draft.inputs order node) options).result = .ok (.value value))
      (type : node.kind.outputType? = some value.type)
      (allocated : (draft.identifiers.allocate node.id options.strictIdentifiers).result =
        .ok (identifier, identifiers)) :
      Adds options output order draft node (draft.declared identifiers node.id identifier value)

theorem adds_of_add (added : (Draft.add options output order draft node).result = .ok next) :
    draft.Adds options output order node next := by
  unfold add at added
  cases sink : node.kind.isOutput with
  | true =>
    by_cases selected : node.id = output.id
    · simp only [sink, selected, bne_self_eq_false, Bool.and_false, Bool.false_eq_true, if_false,
        Outcome.result_bind, Node.compile_output sink] at added
      cases added
      exact .color sink selected
    · rw [if_pos (by simp [sink, selected])] at added
      cases added
      exact .skip sink selected
  | false =>
    rw [if_neg (by simp [sink]), Outcome.result_bind] at added
    rcases except_bind_eq_ok.1 added with ⟨emission, compiled, added⟩
    rcases Node.compile_value sink compiled with ⟨value, rfl, type⟩
    simp only [declare, Outcome.result_bind] at added
    rcases except_bind_eq_ok.1 added with ⟨⟨identifier, identifiers⟩, allocated, same⟩
    cases same
    exact .value sink compiled type allocated

/-- A node is rejected by its own compiler or for its identifier. -/
theorem add_error_iff :
    (∃ error, (Draft.add options output order draft node).result = .error error) ↔
      (∃ error, (node.compile (draft.inputs order node) options).result = .error error) ∨
        node.kind.isOutput = false ∧
          ∃ error, (draft.identifiers.allocate node.id options.strictIdentifiers).result =
            .error error := by
  unfold add
  cases sink : node.kind.isOutput with
  | true =>
    simp only [Node.compile_output sink, reduceCtorEq, exists_false, false_and, or_self, iff_false]
    split
    · exact not_error_of_ok rfl
    · simp only [Outcome.result_bind]
      rw [← inputs, Node.compile_output sink]
      exact not_error_of_ok rfl
  | false =>
    rw [if_neg (by simp), Outcome.result_bind]
    simp only [true_and]
    rw [← inputs]
    rcases compiled : (node.compile (draft.inputs order node) options).result with error | emission
    · exact ⟨fun _ => .inl ⟨error, rfl⟩, fun _ => ⟨error, rfl⟩⟩
    · rcases Node.compile_value sink compiled with ⟨value, rfl, -⟩
      change (∃ error, (draft.declare node.id value options).result = .error error) ↔ _
      simp only [declare, Outcome.result_bind]
      rcases (draft.identifiers.allocate node.id options.strictIdentifiers).result with error | given
      · exact ⟨fun _ => .inr ⟨error, rfl⟩, fun _ => ⟨error, rfl⟩⟩
      · refine iff_of_false (not_error_of_ok rfl) fun reason => ?_
        exact reason.elim (not_error_of_ok rfl) (not_error_of_ok rfl)

/-- What every added node keeps holds at the end of a run if it held before it. -/
theorem run_invariant (I : List Node → Draft → Prop)
    (step : ∀ before node after draft next, order.nodes = before ++ node :: after →
      I before draft → Adds options output order draft node next → I (before ++ [node]) next)
    {run : List Node} (split : order.nodes = before ++ run ++ after) (holds : I before draft)
    (ran : (run.foldlM (Draft.add options output order) draft).result = .ok final) :
    I (before ++ run) final := by
  rw [Outcome.result_foldlM] at ran
  induction run generalizing before draft with
  | nil =>
    cases ran
    rw [List.append_nil]
    exact holds
  | cons node run ih =>
    rw [List.foldlM_cons] at ran
    rcases except_bind_eq_ok.1 ran with ⟨next, added, ran⟩
    have kept := step before node (run ++ after) draft next (by simp [split]) holds
      (adds_of_add added)
    rw [List.append_cons]
    exact ih (by simp [split]) kept ran

/-- What a draft knows after the nodes of `before`: each value has the identifier it was given, and
is bound to that identifier with the type of its kind. -/
structure Knows (before : List Node) (draft : Draft) : Prop where
  given : ∀ id, (draft.identifiers.given? id).isSome ↔
    ∃ node ∈ before, node.kind.isOutput = false ∧ node.id = id
  bound : ∀ node ∈ before, node.kind.isOutput = false → ∃ identifier type,
    draft.identifiers.given? node.id = some identifier ∧ node.kind.outputType? = some type ∧
      draft.bindings.find? (some node.id) = some ⟨.name identifier, type⟩
  unbound : ∀ id, draft.identifiers.given? id = none → draft.bindings.find? (some id) = none

theorem Knows.empty : Knows [] .empty where
  given := by simp [Draft.empty, Identifiers.empty, Identifiers.given?]
  bound := by simp
  unbound := by simp [Draft.empty, Bindings.empty, Bindings.find?]

/-- The ids of the nodes that were added before are other ids. -/
theorem new_id {graph : Graph} (sound : order.Sound graph)
    (split : order.nodes = before ++ node :: after) : ∀ other ∈ before, other.id ≠ node.id :=
  fun _ member => sound.other_id split member List.mem_cons_self

theorem Knows.new (knows : Knows before draft) (new : ∀ other ∈ before, other.id ≠ node.id) :
    draft.identifiers.given? node.id = none := by
  rw [← Option.not_isSome_iff_eq_none, knows.given]
  intro listed
  rcases listed with ⟨other, member, -, same⟩
  exact new other member same

theorem Knows.add (knows : Knows before draft) (new : ∀ other ∈ before, other.id ≠ node.id)
    (added : Adds options output order draft node next) : Knows (before ++ [node]) next := by
  have output_case (sink : node.kind.isOutput = true) (draft : Draft) (knows : Knows before draft) :
      Knows (before ++ [node]) draft := by
    refine ⟨fun id => ?_, fun other member proper => ?_, knows.unbound⟩
    · rw [knows.given]
      simp [or_and_right, exists_or, sink]
    · rcases List.mem_append.1 member with member | member
      · exact knows.bound other member proper
      · rw [List.mem_singleton.1 member, sink] at proper
        cases proper
  cases added with
  | skip sink other => exact output_case sink draft knows
  | color sink selected =>
    exact output_case sink _ ⟨knows.given, knows.bound, knows.unbound⟩
  | @value proper value identifier identifiers compiled type allocated =>
    rcases Identifiers.allocate_new (knows.new new) allocated with ⟨-, rfl, -, -⟩
    refine ⟨fun id => ?_, fun other member proper' => ?_, fun id free => ?_⟩
    · simp only [declared, Identifiers.given?_give, List.mem_append, List.mem_singleton]
      by_cases same : id = node.id
      · simp only [same, if_true, Option.isSome_some, true_iff]
        exact ⟨node, .inr rfl, proper, rfl⟩
      · rw [if_neg same, knows.given]
        constructor
        · intro listed
          rcases listed with ⟨other, member, rest⟩
          exact ⟨other, .inl member, rest⟩
        · intro listed
          rcases listed with ⟨other, member | rfl, proper', rfl⟩
          · exact ⟨other, member, proper', rfl⟩
          · exact absurd rfl same
    · rcases List.mem_append.1 member with member | member
      · have different := new other member
        simp only [declared, Identifiers.given?_give, if_neg different,
          Bindings.find?_bind_of_ne _ _ different]
        exact knows.bound other member proper'
      · rw [List.mem_singleton.1 member]
        exact ⟨identifier, value.type, by simp [declared, Identifiers.given?_give], type,
          Bindings.find?_bind_self _ _ _⟩
    · simp only [declared, Identifiers.given?_give] at free ⊢
      split at free
      · cases free
      · next different =>
        rw [Bindings.find?_bind_of_ne _ _ different]
        exact knows.unbound id free

/-- Adding a node gives no other id an identifier. -/
theorem Adds.given? (added : Adds options output order draft node next)
    (new : draft.identifiers.given? node.id = none) {id : String} (other : id ≠ node.id) :
    next.identifiers.given? id = draft.identifiers.given? id := by
  cases added with
  | skip => rfl
  | color => rfl
  | value proper compiled type allocated =>
    rcases Identifiers.allocate_new new allocated with ⟨-, rfl, -, -⟩
    rw [declared, Identifiers.given?_give, if_neg other]

end Draft

namespace Graph

variable {graph : Graph} {options : Options}

theorem orderFor_sound (graph : Graph) (output : Node) : (graph.orderFor output).Sound graph :=
  graph.order_restrict_closure_sound output.id

/-- The nodes that an output needs are those of its closure, each the first of its id. -/
theorem mem_orderFor (graph : Graph) (output node : Node) :
    node ∈ (graph.orderFor output).nodes ↔
      graph.find? node.id = some node ∧ node.id ∈ graph.closure output.id := by
  simp only [orderFor, Order.restrict, List.mem_filter, List.contains_iff_mem]
  refine and_congr_left fun _ => ?_
  exact ⟨graph.order_sound.first node, order_complete⟩

/-- The draft of a graph, once its output is selected. -/
def drafts (graph : Graph) (options : Options) (output : Node) : Except CompileError Draft :=
  ((graph.orderFor output).nodes.foldlM (Draft.add options output (graph.orderFor output))
    .empty).result

variable {output : Node} {draft : Draft}

/-- What every added node keeps holds of a finished draft. -/
theorem drafts_invariant (I : List Node → Draft → Prop)
    (step : ∀ before node after draft next, (graph.orderFor output).nodes = before ++ node :: after →
      I before draft → Draft.Adds options output (graph.orderFor output) draft node next →
        I (before ++ [node]) next)
    (start : I [] .empty) (drafted : graph.drafts options output = .ok draft) :
    I (graph.orderFor output).nodes draft := by
  have whole : (graph.orderFor output).nodes = [] ++ (graph.orderFor output).nodes ++ [] := by simp
  exact Draft.run_invariant I step whole start drafted

theorem drafts_knows (drafted : graph.drafts options output = .ok draft) :
    Draft.Knows (graph.orderFor output).nodes draft :=
  drafts_invariant Draft.Knows
    (fun _ _ _ _ _ split knows added =>
      knows.add (Draft.new_id (graph.orderFor_sound output) split) added) .empty drafted

theorem compile_result (graph : Graph) (options : Options) :
    (graph.compile options).result =
      match graph.output? with
      | none => .ok .fallback
      | some output =>
        if (graph.orderFor output).nodes.isEmpty then .ok .fallback
        else graph.drafts options output >>= fun draft => .ok (.body draft.statements) := by
  unfold compile drafts
  cases graph.output? with
  | none => rfl
  | some output =>
    simp only [Outcome.result_bind, Outcome.result_forM_note]
    split
    · rfl
    · simp only [Outcome.result_bind, Outcome.result_note]
      rfl

theorem compile_body {statements : List Statement}
    (compiled : (graph.compile options).result = .ok (.body statements)) :
    ∃ output draft, graph.output? = some output ∧ graph.drafts options output = .ok draft ∧
      draft.statements = statements := by
  rw [compile_result] at compiled
  split at compiled
  · cases compiled
  · next output selected =>
    split at compiled
    · cases compiled
    · rcases except_bind_eq_ok.1 compiled with ⟨draft, drafted, same⟩
      cases same
      exact ⟨output, draft, selected, drafted, rfl⟩

end Graph

end NodeShader
