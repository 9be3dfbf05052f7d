import Mathlib.Data.List.Basic
import Mathlib.Data.List.Forall2
import NodeShader.Proofs.Graph.Search

/-!
Images of a graph: the same nodes under other ids, fed in the same way. The order of an image is the
image of the order.
-/

namespace NodeShader

def Cut.rename (name : String → String) (cut : Cut) : Cut :=
  ⟨name cut.node, cut.slot, name cut.target⟩

def Order.map (name : String → String) (image : Node → Node) (order : Order) : Order where
  nodes := order.nodes.map image
  cuts := order.cuts.map (Cut.rename name)

namespace Search

def map (name : String → String) (image : Node → Node) (search : Search) : Search where
  entered := search.entered.map name
  order := search.order.map name image

theorem list_map (search : Search) (node : Node) (name : String → String) (image : Node → Node) :
    (search.map name image).list (image node) = (search.list node).map name image := by
  simp [list, map, Order.map]

theorem cut_map (search : Search) (cut : Cut) (name : String → String) (image : Node → Node) :
    (search.map name image).cut (cut.rename name) = (search.cut cut).map name image := by
  simp [Search.cut, map, Order.map]

end Search

namespace Graph

/-- The slots of a visit that are fed, of those still to be looked at. -/
def fedSlots (graph : Graph) (visit : Visit) : List Nat :=
  visit.slots.filter fun slot => (graph.feeder? visit.node slot).isSome

/-- A graph whose nodes are those of another, renamed; besides the slots of its own a node may have
more that nothing feeds. -/
structure IsImage (other graph : Graph) (name : String → String) (image : Node → Node) : Prop where
  nodes : other.nodes = graph.nodes.map image
  id : ∀ node, (image node).id = name node.id
  injective : Function.Injective name
  feeds : ∀ node slot, other.feeder? (image node) slot = (graph.feeder? node slot).map image
  slots : ∀ node, node.inputs.length ≤ (image node).inputs.length

/-- A visit of the image of a node, with the same slots to be looked at as far as they are fed. -/
structure Shows (other graph : Graph) (image : Node → Node) (shown visit : Visit) : Prop where
  node : shown.node = image visit.node
  fed : other.fedSlots shown = graph.fedSlots visit

variable {graph other : Graph} {name : String → String} {image : Node → Node} {node target : Node}
  {slot : Nat} {slots skipped : List Nat} {outer : List Visit} {search : Search} {id : String}

/-- Slots that nothing feeds are passed over. -/
theorem finish_skip (unfed : ∀ slot ∈ skipped, graph.feeder? node slot = none) :
    graph.finish (⟨node, skipped ++ slots⟩ :: outer) search =
      graph.finish (⟨node, slots⟩ :: outer) search := by
  induction skipped with
  | nil => rfl
  | cons slot skipped ih =>
    rw [List.forall_mem_cons] at unfed
    rw [List.cons_append, finish_unfed unfed.1, ih unfed.2]

theorem fedSlots_fed (feeds : graph.feeder? node slot = some target) :
    graph.fedSlots ⟨node, slot :: slots⟩ = slot :: graph.fedSlots ⟨node, slots⟩ :=
  List.filter_cons_of_pos (by rw [feeds]; rfl)

theorem fedSlots_unfed (unfed : graph.feeder? node slot = none) :
    graph.fedSlots ⟨node, slot :: slots⟩ = graph.fedSlots ⟨node, slots⟩ :=
  List.filter_cons_of_neg (by simp [unfed])

/-- A visit that shows another one looks at the same fed slot next, after some that nothing feeds. -/
theorem Shows.next {shown : Visit} (shows : Shows other graph image shown ⟨node, slot :: slots⟩)
    (feeds : graph.feeder? node slot = some target) :
    ∃ more, Shows other graph image ⟨image node, more⟩ ⟨node, slots⟩ ∧
      ∀ outer search, other.finish (shown :: outer) search =
        other.finish (⟨image node, slot :: more⟩ :: outer) search := by
  rcases shown with ⟨shown, left⟩
  rcases shows with ⟨rfl, fed⟩
  rw [fedSlots_fed feeds] at fed
  rcases List.filter_eq_cons_iff.1 fed with ⟨skipped, more, rfl, unfed, -, rest⟩
  refine ⟨more, ⟨rfl, rest⟩, fun outer search => finish_skip fun slot member => ?_⟩
  simpa using unfed slot member

namespace IsImage

theorem named (same : other.IsImage graph name image) (node : Node) (id : String) :
    ((image node).id == name id) = (node.id == id) := by
  rw [Bool.eq_iff_iff, beq_iff_eq, beq_iff_eq, same.id, same.injective.eq_iff]

theorem find? (same : other.IsImage graph name image) (id : String) :
    other.find? (name id) = (graph.find? id).map image := by
  simp only [Graph.find?, same.nodes, List.find?_map, Function.comp_def, same.named]

theorem map_feeds (same : other.IsImage graph name image)
    (feeds : graph.feeder? node slot = some target) :
    other.feeder? (image node) slot = some (image target) := by
  rw [same.feeds, feeds]
  rfl

theorem fedSlots (same : other.IsImage graph name image) (node : Node) :
    other.fedSlots ⟨image node, (image node).slots⟩ = graph.fedSlots ⟨node, node.slots⟩ := by
  have fed (slot : Nat) : (other.feeder? (image node) slot).isSome =
      (graph.feeder? node slot).isSome := by
    rw [same.feeds, Option.isSome_map]
  rcases Nat.exists_eq_add_of_le (same.slots node) with ⟨more, length⟩
  have beyond : ((List.range more).map (node.inputs.length + ·)).filter
      (fun slot => (graph.feeder? node slot).isSome) = [] := by
    rw [List.filter_eq_nil_iff]
    intro slot member fed
    rcases List.mem_map.1 member with ⟨surplus, -, rfl⟩
    rcases Option.isSome_iff_exists.1 fed with ⟨target, feeds⟩
    rcases Option.bind_eq_some_iff.1 feeds with ⟨named, wired, -⟩
    have inside := List.mem_range.1 (Node.mem_slots wired)
    omega
  simp only [Graph.fedSlots, fed, Node.slots, length]
  rw [List.range_add, List.filter_append, beyond, List.append_nil]

theorem hasEntered (same : other.IsImage graph name image) (search : Search) (id : String) :
    (search.map name image).hasEntered (name id) = search.hasEntered id := by
  rw [Bool.eq_iff_iff, Search.hasEntered_iff, Search.hasEntered_iff]
  exact List.mem_map_of_injective same.injective

theorem hasListed (same : other.IsImage graph name image) (search : Search) (id : String) :
    (search.map name image).hasListed (name id) = search.hasListed id := by
  simp only [Search.hasListed, Search.map, Order.map, List.any_map, Function.comp_def, same.named]

theorem enter (same : other.IsImage graph name image) (search : Search) (node : Node) :
    (search.map name image).enter (image node) = (search.enter node).map name image := by
  simp [Search.enter, Search.map, same.id]

theorem finish (same : other.IsImage graph name image) (visits : List Visit) (search : Search)
    {shown : List Visit} (shows : List.Forall₂ (Shows other graph image) shown visits) :
    other.finish shown (search.map name image) = (graph.finish visits search).map name image := by
  -- the image follows step by step, but for the slots that nothing feeds
  fun_induction Graph.finish graph visits search generalizing shown with
  | case1 search =>
    cases shows
    exact finish_nil
  | case2 search node outer ih =>
    rcases List.forall₂_cons_right_iff.1 shows with ⟨⟨_, slots⟩, rest, ⟨rfl, fed⟩, shown, rfl⟩
    have unfed : ∀ slot ∈ slots, other.feeder? (image node) slot = none := by
      simpa [Graph.fedSlots] using fed
    rw [← ih shown, ← List.append_nil slots, finish_skip unfed, finish_list, Search.list_map]
  | case3 search node slot slots outer unfed ih =>
    rcases List.forall₂_cons_right_iff.1 shows with ⟨visit, rest, here, shown, rfl⟩
    exact ih (.cons ⟨here.node, here.fed.trans (fedSlots_unfed unfed)⟩ shown)
  | case4 search node slot slots outer target feeds entered listed ih =>
    rcases List.forall₂_cons_right_iff.1 shows with ⟨visit, rest, here, shown, rfl⟩
    rcases here.next feeds with ⟨more, here, next⟩
    rw [← ih (.cons here shown), next, finish_fed (same.map_feeds feeds), same.id, same.hasEntered,
      same.hasListed, if_pos entered, if_pos listed]
  | case5 search node slot slots outer target feeds entered unlisted ih =>
    rcases List.forall₂_cons_right_iff.1 shows with ⟨visit, rest, here, shown, rfl⟩
    rcases here.next feeds with ⟨more, here, next⟩
    rw [← ih (.cons here shown), next, finish_fed (same.map_feeds feeds), same.id, same.hasEntered,
      same.hasListed, if_pos entered, if_neg unlisted, ← Search.cut_map, same.id]
    rfl
  | case6 search node slot slots outer target feeds new ih =>
    rcases List.forall₂_cons_right_iff.1 shows with ⟨visit, rest, here, shown, rfl⟩
    rcases here.next feeds with ⟨more, here, next⟩
    have enters : Shows other graph image ⟨image target, (image target).slots⟩
        ⟨target, target.slots⟩ := ⟨rfl, same.fedSlots target⟩
    rw [← ih (.cons enters (.cons here shown)), next, finish_fed (same.map_feeds feeds), same.id,
      same.hasEntered, if_neg new, same.enter]

theorem visit (same : other.IsImage graph name image) (search : Search) (node : Node) :
    other.visit (search.map name image) (image node) = (graph.visit search node).map name image := by
  have enters : Shows other graph image ⟨image node, (image node).slots⟩ ⟨node, node.slots⟩ :=
    ⟨rfl, same.fedSlots node⟩
  unfold Graph.visit
  rw [same.id, same.hasEntered]
  split
  · rfl
  · rw [same.enter, same.finish _ _ (.cons enters .nil)]

/-- The order of an image is the image of the order. -/
theorem order (same : other.IsImage graph name image) :
    other.order = graph.order.map name image := by
  have visits (roots : List Node) (search : Search) :
      (roots.map image).foldl other.visit (search.map name image) =
        (roots.foldl graph.visit search).map name image := by
    induction roots generalizing search with
    | nil => rfl
    | cons root roots ih => rw [List.map_cons, List.foldl_cons, same.visit, ih, List.foldl_cons]
  have whole := visits graph.nodes .start
  rw [← same.nodes] at whole
  exact congrArg Search.order whole

theorem mem_closure (same : other.IsImage graph name image) (start : String) :
    name id ∈ other.closure (name start) ↔ id ∈ graph.closure start := by
  constructor
  · intro member
    have closed : other.IsClosed ((graph.closure start).map name) := by
      intro shown slot target first inside feeds
      rcases List.mem_map.1 inside with ⟨id, needed, named⟩
      rw [← named, same.find?, Option.map_eq_some_iff] at first
      rcases first with ⟨node, found, rfl⟩
      rw [same.feeds, Option.map_eq_some_iff] at feeds
      rcases feeds with ⟨source, feeds, rfl⟩
      rw [same.id]
      have here := find?_id found
      exact List.mem_map_of_mem (closure_closed start (here ▸ found) (here ▸ needed) feeds)
    have within := closure_subset closed fun resolves => List.mem_map_of_mem (mem_closure_self (by
      rwa [same.find?, Option.isSome_map] at resolves))
    exact (List.mem_map_of_injective same.injective).1 (within member)
  · intro member
    let kept := (graph.closure start).filter fun id => (other.closure (name start)).contains (name id)
    have mem_kept {id : String} : id ∈ kept ↔
        id ∈ graph.closure start ∧ name id ∈ other.closure (name start) := by
      simp [kept]
    have closed : graph.IsClosed kept := by
      intro node slot target first inside feeds
      rcases mem_kept.1 inside with ⟨needed, shown⟩
      have first' : other.find? (image node).id = some (image node) := by
        rw [same.id, same.find?, first]
        rfl
      have fed := closure_closed (name start) first' (same.id node ▸ shown) (same.map_feeds feeds)
      exact mem_kept.2 ⟨closure_closed start first needed feeds, same.id target ▸ fed⟩
    have within := closure_subset closed fun resolves => mem_kept.2 ⟨mem_closure_self resolves,
      mem_closure_self (by rwa [same.find?, Option.isSome_map])⟩
    exact (mem_kept.1 (within member)).2

/-- What a node needs of an image is the image of what it needs. -/
theorem restrict (same : other.IsImage graph name image) (start : String) :
    other.order.restrict (other.closure (name start)) =
      (graph.order.restrict (graph.closure start)).map name image := by
  have needed (id : String) :
      (other.closure (name start)).contains (name id) = (graph.closure start).contains id := by
    rw [Bool.eq_iff_iff, List.contains_iff_mem, List.contains_iff_mem, same.mem_closure]
  simp only [same.order, Order.restrict, Order.map, List.filter_map, Function.comp_def, same.id,
    Cut.rename, needed]

end IsImage

end Graph

end NodeShader
