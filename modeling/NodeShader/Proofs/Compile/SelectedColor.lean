import NodeShader.Proofs.Compile.Strictness
import NodeShader.Proofs.Compile.Wiring
import NodeShader.Proofs.Graph.Selection

/-!
The color of a fragment body. The output is selected by its place, but what it needs is looked up by
its id: the body sets the color once when the first node of that id is an output, from the first
slot of that node, and not at all when it is none.
-/

namespace NodeShader

/-- Whether a statement sets the color. -/
def Statement.setsColor : Statement → Bool
  | .declare _ _ => false
  | .output _ => true

namespace Draft

variable {options : Options} {order : Order} {draft : Draft} {node : Node} {statement : Statement}

/-- The statement of an output sets the color, to what is in the output's first slot. -/
theorem Emits.of_isOutput (emits : Emits options order draft node statement)
    (sink : node.kind.isOutput = true) :
    statement = .output ((draft.inputs order node).get 0 .vec3f).code := by
  cases emits with
  | declare compiled =>
    rw [Node.compile_output sink] at compiled
    cases compiled
  | output compiled =>
    rw [Node.compile_output sink] at compiled
    cases compiled
    rfl

theorem Emits.setsColor_iff (emits : Emits options order draft node statement) :
    node.kind.isOutput = true ↔ statement.setsColor = true := by
  constructor
  · intro sink
    rw [emits.of_isOutput sink]
    rfl
  · intro sets
    cases emits with
    | declare => cases sets
    | output compiled => exact Node.isOutput_of_color compiled

end Draft

namespace Graph

variable {graph : Graph} {output first : Node} {draft : Draft}

/-- What an output needs holds the first node of its id. -/
theorem mem_orderFor_first (found : graph.find? output.id = some first) :
    first ∈ (graph.orderFor output).nodes := by
  rw [mem_orderFor, find?_id found]
  exact ⟨found, mem_closure_self (by rw [found]; rfl)⟩

/-- Of the nodes that an output needs, no other than the first of its id may set the color. -/
theorem emitting_sinks (found : graph.find? output.id = some first) :
    ((graph.orderFor output).emitting output).filter (·.kind.isOutput) =
      [first].filter (·.kind.isOutput) := by
  have both (node : Node) : (node.kind.isOutput && node.emits output) =
      (node.kind.isOutput && node.id == first.id) := by
    rw [Node.emits, find?_id found]
    cases node.kind.isOutput <;> simp [bne]
  have alone := filter_id_eq (graph.orderFor_sound output).distinct (mem_orderFor_first found)
  rw [Order.emitting, List.filter_filter]
  simp only [both]
  rw [← List.filter_filter, alone]

theorem shader_drafted (selected : graph.output? = some output)
    (found : graph.find? output.id = some first) :
    ∃ draft, graph.drafts .lenient output = .ok draft ∧ graph.shader = .body draft.statements := by
  have compiled := compile_shader graph
  rw [compile_result, selected] at compiled
  have needed : ¬ (graph.orderFor output).nodes.isEmpty = true := by
    rw [List.isEmpty_iff]
    exact List.ne_nil_of_mem (mem_orderFor_first found)
  dsimp only at compiled
  rw [if_neg needed] at compiled
  rcases except_bind_eq_ok.1 compiled with ⟨draft, drafted, same⟩
  exact ⟨draft, drafted, (Except.ok.inj same).symm⟩

/-- The code of the color that an output sets: black when its first slot has no value to read, and
otherwise what was declared for the node that feeds the slot. -/
def IsColor (graph : Graph) (order : Order) (draft : Draft) (output : Node) (color : Code) : Prop :=
  (graph.Absent order output 0 → color = (Typed.zero .vec3f).code) ∧
    ∀ target, graph.source? order output 0 = some target →
      ∃ identifier type, draft.identifiers.given? target.id = some identifier ∧
        target.kind.outputType? = some type ∧
        color = ((Typed.mk (.name identifier) type).convert .vec3f).code

/-- The first output slot, read as a color from the values of the finished draft. -/
theorem isColor_of_drafts (drafted : graph.drafts .lenient output = .ok draft)
    (member : first ∈ (graph.orderFor output).nodes) :
    graph.IsColor (graph.orderFor output) draft first
      ((draft.inputs (graph.orderFor output) first).get 0 .vec3f).code := by
  have sound := graph.orderFor_sound output
  rcases Draft.run_written sound drafted with ⟨knows, -⟩
  have read : (draft.inputs (graph.orderFor output) first).get 0 .vec3f =
      (((draft.inputs (graph.orderFor output) first).find? 0).getD (.zero .vec3f)).convert .vec3f :=
    rfl
  constructor
  · intro absent
    have nothing := Draft.find?_of_source?_none sound knows (List.Subset.refl _)
      (source?_eq_none_iff.2 absent)
    rw [read, nothing]
    rfl
  · intro target source
    rcases List.append_of_mem member with ⟨before, after, split⟩
    have earlier := Draft.source?_before sound split source
    rcases Draft.find?_of_source? knows (by simp [split, earlier]) source with
      ⟨identifier, type, given, kind, found⟩
    refine ⟨identifier, type, given, kind, ?_⟩
    rw [read, found]
    rfl

/-- The body of a graph with an output sets the color at most once: to the first slot of the first
node of the selected output's id, if that node is an output, and else not at all. -/
theorem shader_color (graph : Graph) (present : ∃ node ∈ graph.nodes, node.kind.isOutput = true) :
    ∃ output first draft, graph.output? = some output ∧ graph.find? output.id = some first ∧
      graph.drafts .lenient output = .ok draft ∧ graph.shader = .body draft.statements ∧
      (first.kind.isOutput = true → ∃ color,
        draft.statements.filter Statement.setsColor = [.output color] ∧
          graph.IsColor (graph.orderFor output) draft first color) ∧
      (first.kind.isOutput = false → draft.statements.filter Statement.setsColor = []) := by
  rcases exists_output present with ⟨output, selected⟩
  obtain ⟨first, found⟩ : ∃ first, graph.find? output.id = some first := by
    rw [← Option.isSome_iff_exists, find?, List.find?_isSome]
    exact ⟨output, (output?_mem selected).1, beq_self_eq_true _⟩
  rcases shader_drafted selected found with ⟨draft, drafted, body⟩
  have written := (Draft.run_written (graph.orderFor_sound output) drafted).2
  have sinks := List.rel_filter (p := (·.kind.isOutput)) (q := Statement.setsColor)
    (R := fun node statement => Draft.Emits .lenient (graph.orderFor output) draft node statement)
    (fun _ _ emits => emits.setsColor_iff) written
  rw [← Order.emitting, emitting_sinks found] at sinks
  refine ⟨output, first, draft, selected, found, drafted, body, fun sink => ?_, fun proper => ?_⟩
  · rw [List.filter_cons, if_pos sink, List.filter_nil] at sinks
    rcases List.forall₂_cons_left_iff.1 sinks with ⟨statement, rest, emits, ends, filtered⟩
    rw [List.forall₂_nil_left_iff] at ends
    rw [ends, emits.of_isOutput sink] at filtered
    exact ⟨_, filtered, isColor_of_drafts drafted (mem_orderFor_first found)⟩
  · rw [List.filter_cons, if_neg (by simp [proper]), List.filter_nil] at sinks
    exact List.forall₂_nil_left_iff.1 sinks

theorem loop_color : ∃ statements color, loop.shader = .body statements ∧
    statements.filter Statement.setsColor = [.output color] := by
  obtain ⟨output, first, draft, selected, found, -, body, sets, -⟩ :=
    shader_color loop ⟨_, List.mem_cons_self, by decide +kernel⟩
  have sink : (loop.output?.bind fun output => loop.find? output.id).map (·.kind.isOutput) =
      some true := by decide +kernel
  rw [selected, Option.bind_some, found, Option.map_some, Option.some.injEq] at sink
  rcases sets sink with ⟨color, alone, -⟩
  exact ⟨draft.statements, color, body, alone⟩

/-- A node that is no output has the id of the only output, and stands before it. -/
def shadowed : Graph where
  nodes := [⟨"o", "Time", [], []⟩, ⟨"p", "UV", [], []⟩, ⟨"o", "OutputFinal", [some "p"], []⟩]
  wires := []

/-- There is an output, but no statement sets the color. -/
theorem shadowed_colorless : (∃ node ∈ shadowed.nodes, node.kind.isOutput = true) ∧
    ∃ statements, (shadowed.compile .lenient).result = .ok (.body statements) ∧
      statements.map Statement.text = ["let n_o: f32 = u_time;"] ∧
      statements.filter Statement.setsColor = [] := by
  refine ⟨by decide +kernel, ?_⟩
  obtain ⟨statements, compiled, texts⟩ : ∃ statements,
      (shadowed.compile .lenient).result = .ok (.body statements) ∧
        statements.map Statement.text = ["let n_o: f32 = u_time;"] :=
    exists_body (by decide +kernel)
  refine ⟨statements, compiled, texts, ?_⟩
  rcases List.map_eq_singleton_iff.1 texts with ⟨statement, rfl, text⟩
  cases statement with
  | declare => rfl
  | output color =>
    have start := congrArg String.toList text
    simp [Statement.text] at start

end Graph

end NodeShader
