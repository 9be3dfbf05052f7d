import NodeShader.Graph.Basic

/-!
Nodes in dependency order. Nodes are visited depth first, in the order of the graph and of each
node's slots, and listed when all their inputs are. An input that leads back to a node still being
visited closes a cycle; the wire is cut there.
-/

namespace NodeShader

/-- A wire that was cut: the slot it ends in, and the node it comes from. -/
structure Cut where
  node : String
  slot : Nat
  target : String
  deriving DecidableEq, Repr

structure Order where
  nodes : List Node
  cuts : List Cut

namespace Order

def ids (order : Order) : List String := order.nodes.map (·.id)

def isCut (order : Order) (id : String) (slot : Nat) : Bool :=
  order.cuts.any fun cut => cut.node == id && cut.slot == slot

/-- The order of the nodes with the given ids. -/
def restrict (order : Order) (ids : List String) : Order where
  nodes := order.nodes.filter fun node => ids.contains node.id
  cuts := order.cuts.filter fun cut => ids.contains cut.node

theorem ids_restrict (order : Order) (ids : List String) :
    (order.restrict ids).ids = order.ids.filter ids.contains := by
  simp [Order.ids, restrict, List.filter_map, Function.comp_def]

theorem isCut_restrict (order : Order) (ids : List String) (id : String) (slot : Nat) :
    (order.restrict ids).isCut id slot = (ids.contains id && order.isCut id slot) := by
  rw [Bool.eq_iff_iff]
  simp only [isCut, restrict, List.any_eq_true, List.mem_filter, Bool.and_eq_true, beq_iff_eq]
  constructor
  · rintro ⟨cut, ⟨member, kept⟩, rfl, rfl⟩
    exact ⟨kept, cut, member, rfl, rfl⟩
  · rintro ⟨kept, cut, member, rfl, rfl⟩
    exact ⟨cut, ⟨member, kept⟩, rfl, rfl⟩

end Order

/-- A node that is being visited, with the slots that are still to be looked at. -/
structure Visit where
  node : Node
  slots : List Nat

/-- What a depth-first search has seen: the ids of all nodes it entered, and the order so far. -/
structure Search where
  entered : List String
  order : Order

namespace Search

def start : Search := ⟨[], ⟨[], []⟩⟩

def hasEntered (search : Search) (id : String) : Bool := search.entered.contains id

def hasListed (search : Search) (id : String) : Bool := search.order.nodes.any (·.id == id)

def enter (search : Search) (node : Node) : Search :=
  { search with entered := node.id :: search.entered }

def list (search : Search) (node : Node) : Search :=
  { search with order.nodes := search.order.nodes ++ [node] }

def cut (search : Search) (cut : Cut) : Search :=
  { search with order.cuts := search.order.cuts ++ [cut] }

end Search

namespace Graph

/-- How much of the visits under way is still to be done. -/
def work : List Visit → Nat
  | [] => 0
  | visit :: outer => visit.slots.length + 1 + work outer

/-- Finishes the visits under way, the innermost first. -/
def finish (graph : Graph) (visits : List Visit) (search : Search) : Search :=
  match visits with
  | [] => search
  | ⟨node, []⟩ :: outer => finish graph outer (search.list node)
  | ⟨node, slot :: slots⟩ :: outer =>
    match _found : graph.feeder? node slot with
    | none => finish graph (⟨node, slots⟩ :: outer) search
    | some target =>
      if _entered : search.hasEntered target.id then
        if search.hasListed target.id then finish graph (⟨node, slots⟩ :: outer) search
        else finish graph (⟨node, slots⟩ :: outer) (search.cut ⟨node.id, slot, target.id⟩)
      else
        finish graph (⟨target, target.slots⟩ :: ⟨node, slots⟩ :: outer) (search.enter target)
termination_by effortOutside search.entered graph.nodes + work visits
decreasing_by
  · simp only [Search.list, work, List.length_nil]
    omega
  · simp [work]
  · simp [work]
  · simp only [Search.cut, work, List.length_cons]
    omega
  · have less := effortOutside_cons_lt (feeder?_mem _found) (Bool.eq_false_iff.2 _entered)
    simp only [Search.enter, work, List.length_cons, Node.slots, List.length_range]
    omega

/-- Visits a node, unless a node of its id was entered before. -/
def visit (graph : Graph) (search : Search) (node : Node) : Search :=
  if search.hasEntered node.id then search
  else graph.finish [⟨node, node.slots⟩] (search.enter node)

/-- All nodes in dependency order. -/
def order (graph : Graph) : Order := (graph.nodes.foldl graph.visit .start).order

end Graph

end NodeShader
