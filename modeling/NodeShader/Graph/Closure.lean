import NodeShader.Graph.Basic

/-!
The output that drives a graph, and the nodes that are needed to compute a node.
-/

namespace NodeShader

namespace Graph

/-- The outputs with their places in the list of nodes. -/
def outputs (graph : Graph) : List (Node × Nat) :=
  graph.nodes.zipIdx.filter fun (node, _) => node.kind.isOutput

/-- The last output whose first slot is wired, or else the last output. -/
def selectedOutput? (graph : Graph) : Option (Node × Nat) :=
  let wired := graph.outputs.filter fun (node, _) => (node.input? 0).isSome
  wired.getLast? <|> graph.outputs.getLast?

def output? (graph : Graph) : Option Node := graph.selectedOutput?.map (·.1)

/-- Adds to the visited ids whatever can be reached from the pending ones. -/
def reach (graph : Graph) (visited : List String) (pending : List String) : List String :=
  match pending with
  | [] => visited
  | id :: pending =>
    if _known : visited.contains id then reach graph visited pending
    else match _found : graph.find? id with
      | none => reach graph visited pending
      | some node => reach graph (node.id :: visited) (node.slots.filterMap node.input? ++ pending)
termination_by effortOutside visited graph.nodes + pending.length
decreasing_by
  · simp
  · simp
  · have few := List.length_filterMap_le node.input? node.slots
    have new : visited.contains node.id = false := by rw [find?_id _found]; simpa using _known
    have less := effortOutside_cons_lt (find?_mem _found) new
    simp only [Node.slots, List.length_range] at few
    simp only [List.length_append, List.length_cons, Node.slots]
    omega

/-- The ids of the nodes that are needed to compute the node of an id, its own included; none when
no node has it. -/
def closure (graph : Graph) (id : String) : List String := graph.reach [] [id]

end Graph

end NodeShader
