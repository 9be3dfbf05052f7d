import NodeShader.Graph.Closure
import NodeShader.Proofs.Graph.Order

/-!
The closure of a node is closed: what feeds one of its nodes belongs to it.
-/

namespace NodeShader

namespace Graph

variable {graph : Graph}

/-- Every id that the nodes of `ids` name is among `ids` or `pending`, unless no node has it. -/
def ClosedUpTo (graph : Graph) (ids pending : List String) : Prop :=
  ∀ id ∈ ids, ∀ node, graph.find? id = some node → ∀ slot named, node.input? slot = some named →
    named ∈ ids ∨ named ∈ pending ∨ graph.find? named = none

theorem reach_closed (visited pending : List String) (closed : graph.ClosedUpTo visited pending) :
    graph.ClosedUpTo (graph.reach visited pending) [] := by
  fun_induction reach graph visited pending with
  | case1 => exact closed
  | case2 visited id pending known ih =>
    apply ih
    intro other member node found slot named wired
    have := closed other member node found slot named wired
    have inside : id ∈ visited := by simpa using known
    simp only [List.mem_cons] at this
    rcases this with this | (rfl | this) | this
    · exact .inl this
    · exact .inl inside
    · exact .inr (.inl this)
    · exact .inr (.inr this)
  | case3 visited id pending unknown missing ih =>
    apply ih
    intro other member node found slot named wired
    have := closed other member node found slot named wired
    simp only [List.mem_cons] at this
    rcases this with this | (rfl | this) | this
    · exact .inl this
    · exact .inr (.inr missing)
    · exact .inr (.inl this)
    · exact .inr (.inr this)
  | case4 visited id pending unknown node found ih =>
    apply ih
    intro other member source resolved slot named wired
    simp only [List.mem_cons, List.mem_append] at member ⊢
    rcases member with rfl | member
    · rw [find?_id found] at resolved
      rw [found] at resolved
      cases resolved
      exact .inr (.inl (.inl (List.mem_filterMap.2 ⟨slot, Node.mem_slots wired, wired⟩)))
    · have := closed other member source resolved slot named wired
      simp only [List.mem_cons] at this
      rcases this with this | (rfl | this) | this
      · exact .inl (.inr this)
      · exact .inl (.inl (find?_id found).symm)
      · exact .inr (.inl (.inr this))
      · exact .inr (.inr this)

theorem closure_closed (id : String) {node target : Node} {slot : Nat}
    (first : graph.find? node.id = some node) (member : node.id ∈ graph.closure id)
    (feeds : graph.feeder? node slot = some target) : target.id ∈ graph.closure id := by
  rcases Option.bind_eq_some_iff.1 feeds with ⟨named, wired, found⟩
  have closed : graph.ClosedUpTo (graph.closure id) [] :=
    reach_closed [] [id] fun _ none_visited => absurd none_visited List.not_mem_nil
  rw [find?_id found]
  rcases closed node.id member node first slot named wired with inside | absurd_pending | missing
  · exact inside
  · cases absurd_pending
  · rw [missing] at found
    cases found

/-- The order of the nodes that an output needs is sound. -/
theorem order_restrict_closure_sound (graph : Graph) (id : String) :
    (graph.order.restrict (graph.closure id)).Sound graph := by
  apply graph.order_sound.restrict
  intro node member inside slot target feeds
  exact closure_closed id (graph.order_sound.first node member) inside feeds

end Graph

end NodeShader
