import NodeShader.Proofs.Compile.Strictness
import NodeShader.Proofs.Compile.Variant
import NodeShader.Proofs.Graph.Selection

/-!
Wires that come from no node. What a node reads through them is nothing, as if they were not there;
but an output counts as wired by them when the one that drives the graph is selected.
-/

namespace NodeShader

namespace Graph

/-- The node with no wire left but those that come from another node of the graph. -/
def unwire (graph : Graph) (node : Node) : Node :=
  { node with inputs := node.inputs.map fun input => input.filter fun id =>
      !(id.isEmpty || id == node.id) && (graph.find? id).isSome }

/-- The graph without dangling wires, wires of an empty id and wires from a node to itself. -/
def pruned (graph : Graph) : Graph := { graph with nodes := graph.nodes.map graph.unwire }

/-- The last output whose first slot is fed by a node, or else the last output. -/
def fedOutput? (graph : Graph) : Option Node :=
  let outputs := graph.nodes.filter (·.kind.isOutput)
  (outputs.filter fun node => (graph.feeder? node 0).isSome).getLast? <|> outputs.getLast?

variable {graph : Graph} {output : Node}

theorem input?_unwire (graph : Graph) (node : Node) (slot : Nat) :
    (graph.unwire node).input? slot =
      (node.input? slot).filter fun id => (graph.find? id).isSome := by
  ext id
  rw [input?_eq_some_iff, Option.filter_eq_some_iff, input?_eq_some_iff, unwire]
  simp only [List.getElem?_map, Option.map_eq_some_iff, Option.filter_eq_some_iff, Bool.and_eq_true,
    Bool.not_eq_true', Bool.or_eq_false_iff, String.isEmpty_eq_false_iff, beq_eq_false_iff_ne]
  constructor
  · intro given
    rcases given with ⟨⟨input, wired, rfl, proper, found⟩, -⟩
    exact ⟨⟨wired, proper⟩, found⟩
  · intro given
    rcases given with ⟨⟨wired, proper⟩, found⟩
    exact ⟨⟨some id, wired, rfl, proper, found⟩, proper⟩

theorem find?_pruned (graph : Graph) (id : String) :
    graph.pruned.find? id = (graph.find? id).map graph.unwire :=
  List.find?_map

theorem feeder?_unwire (graph : Graph) (node : Node) (slot : Nat) :
    graph.pruned.feeder? (graph.unwire node) slot =
      (graph.feeder? node slot).map graph.unwire := by
  unfold feeder?
  rw [input?_unwire]
  cases wired : node.input? slot with
  | none => rfl
  | some id =>
    change ((some id).filter fun id => (graph.find? id).isSome).bind graph.pruned.find? = _
    cases found : graph.find? id with
    | none => simp [Option.filter, found]
    | some target => simp [Option.filter, found, find?_pruned]

theorem pruned_isVariant (graph : Graph) : graph.pruned.IsVariant graph graph.unwire where
  nodes := rfl
  id _ := rfl
  injective := Function.injective_id
  feeds := graph.feeder?_unwire
  slots node := by simp [unwire]
  kind _ := rfl
  compile _ _ _ := rfl

/-- Without its dangling wires, a graph is driven by an output that is fed. -/
theorem output?_pruned (graph : Graph) :
    graph.pruned.output? = graph.fedOutput?.map graph.unwire := by
  have fed (node : Node) :
      ((graph.unwire node).input? 0).isSome = (graph.feeder? node 0).isSome := by
    rw [input?_unwire, feeder?]
    cases node.input? 0 with
    | none => rfl
    | some id => cases found : graph.find? id <;> simp [Option.filter, found]
  have outputs : graph.pruned.nodes.filter (·.kind.isOutput) =
      (graph.nodes.filter (·.kind.isOutput)).map graph.unwire := List.filter_map
  rw [output?_eq, outputs, lastOutput?, List.filter_map, List.getLast?_map, List.getLast?_map,
    fedOutput?]
  simp only [Function.comp_def, fed]
  cases ((graph.nodes.filter (·.kind.isOutput)).filter fun node =>
    (graph.feeder? node 0).isSome).getLast? <;> rfl

/-- The selection goes wrong only with an output whose first wire is dangling. -/
theorem fedOutput?_eq (fed : ∀ output, graph.output? = some output → (output.input? 0).isSome →
    (graph.feeder? output 0).isSome) : graph.fedOutput? = graph.output? := by
  have fewer (outputs : List Node) : outputs.filter (fun node => (graph.feeder? node 0).isSome) =
      (outputs.filter fun node => (node.input? 0).isSome).filter fun node =>
        (graph.feeder? node 0).isSome := by
    rw [List.filter_filter]
    refine List.filter_congr fun node _ => ?_
    rw [feeder?]
    cases node.input? 0 <;> simp
  rw [output?_eq] at fed ⊢
  unfold lastOutput? at fed ⊢
  rw [fedOutput?, fewer]
  cases last : ((graph.nodes.filter (·.kind.isOutput)).filter fun node =>
      (node.input? 0).isSome).getLast? with
  | none =>
    rw [List.getLast?_eq_none_iff] at last
    rw [last]
    rfl
  | some output =>
    have wired := (List.mem_filter.1 (List.mem_of_getLast? last)).2
    have here := fed output (by rw [last]; rfl) wired
    rcases List.getLast?_eq_some_iff.1 last with ⟨front, split⟩
    rw [split, List.filter_append, List.filter_cons, if_pos here, List.filter_nil,
      List.getLast?_concat]

/-- Dangling wires are as good as none but for the selection: without them a graph compiles to what
it has for the last output that is fed. So nothing changes when that one is selected anyway, as it is
unless the first wire of the selected output is dangling. -/
theorem compile_pruned (graph : Graph) :
    (∀ options, (graph.pruned.compile options).result =
        graph.resultFor options graph.fedOutput?) ∧
      (graph.fedOutput? = graph.output? → graph.pruned.shader.text = graph.shader.text) ∧
      ((∀ output, graph.output? = some output → (output.input? 0).isSome →
        (graph.feeder? output 0).isSome) → graph.fedOutput? = graph.output?) := by
  have selects (options : Options) : (graph.pruned.compile options).result =
      graph.resultFor options graph.fedOutput? := by
    rw [compile_eq_resultFor, output?_pruned, graph.pruned_isVariant.resultFor]
  refine ⟨selects, fun same => ?_, fedOutput?_eq⟩
  rw [shader, selects, same, ← compile_eq_resultFor, shader]

/-- A sum of the position and of what comes through a dangling wire. -/
def halfWired : Graph where
  nodes := [⟨"p", "UV", [], []⟩, ⟨"m", "Add", [some "p", some "ghost"], []⟩,
    ⟨"out", "OutputFinal", [some "m"], []⟩]
  wires := []

theorem halfWired_pruned : halfWired.shader.text ≠ Program.fallback ∧
    halfWired.pruned.shader.text = halfWired.shader.text := by
  have selects := (compile_pruned halfWired).2.2 fun output selected _ => by
    have fed : halfWired.output?.map (fun output => (halfWired.feeder? output 0).isSome) =
        some true := by decide +kernel
    rw [selected] at fed
    exact Option.some.inj fed
  exact ⟨by decide +kernel, (compile_pruned halfWired).2.1 selects⟩

/-- The later of two outputs has nothing but a dangling wire. -/
def misled : Graph where
  nodes := [⟨"p", "UV", [], []⟩, ⟨"a", "OutputFinal", [some "p"], []⟩,
    ⟨"b", "OutputFinal", [some "ghost"], []⟩]
  wires := []

theorem misled_pruned : misled.pruned.shader.text ≠ misled.shader.text := by
  decide +kernel

end Graph

end NodeShader
