import NodeShader.Proofs.Graph.Dependence

/-!
The closure of an id as a set: the ids that can be reached from it, from node to input. The order
restricted to it lists each of these ids once, as the order of the whole graph has them, and with the
same cuts.
-/

namespace NodeShader

namespace Graph

open Relation

/-- A step from the id of a node to the id of another node, which one of its inputs names. -/
def Names (graph : Graph) (id other : String) : Prop :=
  ∃ node slot, graph.find? id = some node ∧ node.input? slot = some other ∧
    (graph.find? other).isSome

variable {graph : Graph} {id other start : String} {node target : Node}

theorem Names.iff_reads (first : graph.find? node.id = some node) :
    graph.Names node.id other ↔ ∃ target, target.id = other ∧ graph.Reads node target := by
  constructor
  · intro names
    rcases names with ⟨here, slot, found, wired, resolves⟩
    rw [first] at found
    cases found
    rcases Option.isSome_iff_exists.1 resolves with ⟨target, found⟩
    exact ⟨target, find?_id found, slot, Option.bind_eq_some_iff.2 ⟨other, wired, found⟩⟩
  · intro given
    rcases given with ⟨target, rfl, slot, feeds⟩
    rcases Option.bind_eq_some_iff.1 feeds with ⟨named, wired, found⟩
    rw [find?_id found]
    exact ⟨node, slot, first, wired, by rw [found]; rfl⟩

/-- Steps between ids are those between the nodes they stand for. -/
theorem reachable_iff_needs (first : graph.find? node.id = some node) :
    ReflTransGen graph.Names node.id id ↔
      ∃ target, target.id = id ∧ ReflTransGen graph.Reads node target := by
  constructor
  · intro reached
    induction reached with
    | refl => exact ⟨node, rfl, .refl⟩
    | tail _ names ih =>
      rcases ih with ⟨middle, rfl, needs⟩
      rcases (Names.iff_reads (first_of_needs first needs)).1 names with ⟨target, same, reads⟩
      exact ⟨target, same, needs.tail reads⟩
  · intro given
    rcases given with ⟨target, rfl, needs⟩
    induction needs with
    | refl => exact .refl
    | tail needs reads ih =>
      exact ih.tail ((Names.iff_reads (first_of_needs first needs)).2 ⟨_, rfl, reads⟩)

theorem closure_of_missing (missing : graph.find? start = none) : graph.closure start = [] := by
  rw [closure, reach, dif_neg (by simp)]
  split
  · rw [reach]
  · next node found =>
    rw [missing] at found
    cases found

theorem reach_nodup (visited pending : List String) (distinct : visited.Nodup) :
    (graph.reach visited pending).Nodup := by
  fun_induction reach graph visited pending with
  | case1 => exact distinct
  | case2 _ _ _ _ ih => exact ih distinct
  | case3 _ _ _ _ _ ih => exact ih distinct
  | case4 visited id pending new node found ih =>
    rw [← find?_id found] at new
    exact ih (List.nodup_cons.2 ⟨by simpa using new, distinct⟩)

theorem closure_nodup (graph : Graph) (start : String) : (graph.closure start).Nodup :=
  reach_nodup [] [start] List.nodup_nil

/-- The closure of an id holds the ids that can be reached from it, if a node has it. -/
theorem mem_closure_iff_reachable :
    id ∈ graph.closure start ↔
      (graph.find? start).isSome ∧ ReflTransGen graph.Names start id := by
  cases found : graph.find? start with
  | none => simp [closure_of_missing found]
  | some node =>
    have same := find?_id found
    subst same
    rw [mem_closure_iff found, reachable_iff_needs found]
    simp

/-- The ids listed are those of the closure. -/
theorem restrict_ids_perm (graph : Graph) (start : String) :
    (graph.order.restrict (graph.closure start)).ids.Perm (graph.closure start) := by
  have sound := order_restrict_closure_sound graph start
  rw [List.perm_ext_iff_of_nodup sound.distinct (closure_nodup graph start)]
  intro id
  rw [Order.ids_restrict, List.mem_filter, List.contains_iff_mem]
  refine and_iff_right_of_imp fun member => ?_
  rcases Option.isSome_iff_exists.1 (find?_of_mem_closure member) with ⟨node, found⟩
  rw [← find?_id found]
  exact List.mem_map_of_mem (order_complete found)

/-- The closure of an id is the set of the ids that can be reached from it, and empty if no node has
it. Restricting the order to it lists each of its ids once, in the order of the whole graph; the
order so restricted holds what feeds the nodes that it lists, and cuts the same of their wires. -/
theorem closure_reachable (graph : Graph) (start : String) :
    (∀ id, id ∈ graph.closure start ↔
        (graph.find? start).isSome ∧ ReflTransGen graph.Names start id) ∧
      (graph.find? start = none → graph.closure start = []) ∧ (graph.closure start).Nodup ∧
      let needed := graph.order.restrict (graph.closure start)
      needed.ids.Perm (graph.closure start) ∧ needed.nodes.Sublist graph.order.nodes ∧
        ∀ node ∈ needed.nodes, ∀ slot,
          (∀ target, graph.feeder? node slot = some target → target ∈ needed.nodes) ∧
            needed.isCut node.id slot = graph.order.isCut node.id slot := by
  refine ⟨fun id => mem_closure_iff_reachable, closure_of_missing,
    closure_nodup graph start, restrict_ids_perm graph start, List.filter_sublist,
    fun node member slot => ⟨fun target feeds => ?_, ?_⟩⟩
  · rcases List.mem_filter.1 member with ⟨listed, inside⟩
    have first := graph.order_sound.first node listed
    have fed := closure_closed start first (List.contains_iff_mem.1 inside) feeds
    exact List.mem_filter.2 ⟨order_complete (feeder?_first feeds), List.contains_iff_mem.2 fed⟩
  · rw [Order.isCut_restrict, (List.mem_filter.1 member).2, Bool.true_and]

end Graph

end NodeShader
