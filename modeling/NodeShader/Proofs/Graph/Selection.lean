import NodeShader.Graph.Closure

/-!
The output that drives a graph. It depends on the outputs and their order alone, not on the places
they have among the other nodes.
-/

namespace NodeShader

namespace Graph

variable {graph : Graph} {output : Node}

/-- The last output whose first slot is wired, or else the last one, of outputs without places. -/
def lastOutput? (outputs : List Node) : Option Node :=
  (outputs.filter fun node => (node.input? 0).isSome).getLast? <|> outputs.getLast?

theorem map_filter_zipIdx {α : Type} (p : α → Bool) (items : List α) (start : Nat) :
    ((items.zipIdx start).filter fun item => p item.1).map (·.1) = items.filter p := by
  induction items generalizing start with
  | nil => rfl
  | cons item items ih =>
    rw [List.zipIdx_cons, List.filter_cons, List.filter_cons]
    cases p item <;> simp [ih]

theorem output?_eq (graph : Graph) :
    graph.output? = lastOutput? (graph.nodes.filter (·.kind.isOutput)) := by
  have all : graph.outputs.map (·.1) = graph.nodes.filter (·.kind.isOutput) :=
    map_filter_zipIdx (fun node : Node => node.kind.isOutput) graph.nodes 0
  have wired : (graph.outputs.filter fun item => (item.1.input? 0).isSome).map (·.1) =
      (graph.outputs.map (·.1)).filter fun node => (node.input? 0).isSome := by
    rw [List.filter_map]
    rfl
  have selected : graph.selectedOutput? =
      ((graph.outputs.filter fun item => (item.1.input? 0).isSome).getLast? <|>
        graph.outputs.getLast?) := rfl
  rw [lastOutput?, ← all, ← wired, List.getLast?_map, List.getLast?_map, output?, selected]
  cases (graph.outputs.filter fun item => (item.1.input? 0).isSome).getLast? <;> rfl

theorem lastOutput?_map {image : Node → Node}
    (wired : ∀ node, ((image node).input? 0).isSome = (node.input? 0).isSome) (outputs : List Node) :
    lastOutput? (outputs.map image) = (lastOutput? outputs).map image := by
  unfold lastOutput?
  rw [List.filter_map, List.getLast?_map, List.getLast?_map]
  simp only [Function.comp_def, wired]
  cases (outputs.filter fun node => (node.input? 0).isSome).getLast? <;> rfl

theorem lastOutput?_mem {outputs : List Node} (last : lastOutput? outputs = some output) :
    output ∈ outputs := by
  unfold lastOutput? at last
  cases wired : (outputs.filter fun node => (node.input? 0).isSome).getLast? with
  | none =>
    rw [wired] at last
    exact List.mem_of_getLast? last
  | some other =>
    rw [wired] at last
    cases last
    exact (List.mem_filter.1 (List.mem_of_getLast? wired)).1

theorem output?_mem (selected : graph.output? = some output) :
    output ∈ graph.nodes ∧ output.kind.isOutput = true := by
  rw [output?_eq] at selected
  exact List.mem_filter.1 (lastOutput?_mem selected)

/-- The id of a node stands for some node. -/
theorem exists_first {node : Node} (member : node ∈ graph.nodes) :
    ∃ first, graph.find? node.id = some first := by
  rw [← Option.isSome_iff_exists, find?, List.find?_isSome]
  exact ⟨node, member, beq_self_eq_true _⟩

/-- A graph with outputs has a selected one. -/
theorem exists_output (present : ∃ node ∈ graph.nodes, node.kind.isOutput = true) :
    ∃ output, graph.output? = some output := by
  rw [← Option.isSome_iff_exists, output?_eq, lastOutput?]
  rcases present with ⟨node, member, sink⟩
  have some_last : (graph.nodes.filter (·.kind.isOutput)).getLast?.isSome := by
    rw [List.getLast?_isSome]
    exact List.ne_nil_of_mem (List.mem_filter.2 ⟨member, sink⟩)
  cases ((graph.nodes.filter (·.kind.isOutput)).filter fun node =>
    (node.input? 0).isSome).getLast? with
  | none => exact some_last
  | some other => rfl

end Graph

end NodeShader
