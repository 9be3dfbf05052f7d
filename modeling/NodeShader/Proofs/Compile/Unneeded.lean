import NodeShader.Proofs.Compile.Wiring
import NodeShader.Proofs.Graph.Restriction
import NodeShader.Proofs.Graph.Selection

/-!
Nodes that no other node reads. All nodes are roots of the search, the unread ones among them, so
such a node can come to a needed one by another way than the output does; what it can change is the
order of the statements and the wires that are cut, and only when it comes to a node first that the
output needs.
-/

namespace NodeShader

namespace Order

variable {order : Order} {ids kept : List String}

end Order

namespace Graph

/-- The graph with one more node, in front of the nodes from a place on. -/
def insertAt (graph : Graph) (place : Nat) (extra : Node) : Graph :=
  { graph with nodes := graph.nodes.take place ++ extra :: graph.nodes.drop place }

/-- A node apart from a graph: it is no output, and no node has its id or is wired to it. -/
structure Unread (graph : Graph) (extra : Node) : Prop where
  proper : extra.kind.isOutput = false
  new : ∀ node ∈ graph.nodes, node.id ≠ extra.id
  unwired : ∀ node ∈ graph.nodes, some extra.id ∉ node.inputs

/-- What feeds a node, at any distance. -/
def sources (graph : Graph) (node : Node) : List String :=
  (node.slots.filterMap (graph.feeder? node)).flatMap fun target => graph.closure target.id

variable {graph : Graph} {place slot : Nat} {extra node target output : Node} {id : String}

theorem mem_sources :
    id ∈ graph.sources node ↔
      ∃ slot target, graph.feeder? node slot = some target ∧ id ∈ graph.closure target.id := by
  simp only [sources, List.mem_flatMap, List.mem_filterMap]
  constructor
  · intro given
    rcases given with ⟨target, ⟨slot, -, feeds⟩, member⟩
    exact ⟨slot, target, feeds, member⟩
  · intro given
    rcases given with ⟨slot, target, feeds, member⟩
    rcases Option.bind_eq_some_iff.1 feeds with ⟨named, wired, -⟩
    exact ⟨target, ⟨slot, Node.mem_slots wired, feeds⟩, member⟩

theorem find?_insertAt (other : id ≠ extra.id) :
    (graph.insertAt place extra).find? id = graph.find? id := by
  have different : (extra.id == id) = false := beq_eq_false_iff_ne.2 (Ne.symm other)
  calc
    _ = (graph.nodes.take place ++ graph.nodes.drop place).find? (·.id == id) := by
      simp only [find?, insertAt, List.find?_append, List.find?_cons, different]
    _ = _ := by rw [List.take_append_drop, find?]

theorem feeder?_insertAt (unnamed : node.input? slot ≠ some extra.id) :
    (graph.insertAt place extra).feeder? node slot = graph.feeder? node slot := by
  unfold feeder?
  cases wired : node.input? slot with
  | none => rfl
  | some named => exact find?_insertAt fun same => unnamed (by rw [wired, same])

theorem Unread.feeder? (apart : graph.Unread extra) (member : node ∈ graph.nodes ∨ node = extra)
    (slot : Nat) :
    (graph.insertAt place extra).feeder? node slot = graph.feeder? node slot := by
  refine feeder?_insertAt fun wired => ?_
  rcases input?_eq_some_iff.1 wired with ⟨given, -, other⟩
  rcases member with member | rfl
  · exact apart.unwired node member (List.mem_of_getElem? given)
  · exact other rfl

theorem Unread.ne_of_mem_closure (apart : graph.Unread extra) {start : String}
    (needed : id ∈ graph.closure start) : id ≠ extra.id := by
  rcases Option.isSome_iff_exists.1 (find?_of_mem_closure needed) with ⟨node, found⟩
  rw [← find?_id found]
  exact apart.new node (find?_mem found)

/-- A new node that is not read changes nothing of what the others need. -/
theorem Unread.mem_closure (apart : graph.Unread extra) (old : id ≠ extra.id) {other : String} :
    other ∈ (graph.insertAt place extra).closure id ↔ other ∈ graph.closure id := by
  have resolves : (graph.insertAt place extra).find? id = graph.find? id := find?_insertAt old
  constructor
  · intro member
    refine closure_subset ?_ (fun present => mem_closure_self (resolves ▸ present)) member
    intro node slot target first inside feeds
    rw [find?_insertAt (apart.ne_of_mem_closure inside)] at first
    rw [apart.feeder? (.inl (find?_mem first))] at feeds
    exact closure_closed id first inside feeds
  · intro member
    refine closure_subset ?_ (fun present => mem_closure_self (resolves ▸ present)) member
    intro node slot target first inside feeds
    have known := find?_mem first
    have first' : (graph.insertAt place extra).find? node.id = some node := by
      rw [find?_insertAt (apart.new node known), first]
    rw [← apart.feeder? (.inl known)] at feeds
    exact closure_closed id first' inside feeds

/-- A sum of the time and the position. -/
def summed : Graph where
  nodes := [⟨"t", "Time", [], []⟩, ⟨"p", "UV", [], []⟩, ⟨"m", "Add", [some "t", some "p"], []⟩,
    ⟨"out", "OutputFinal", [some "m"], []⟩]
  wires := []

end Graph

end NodeShader
