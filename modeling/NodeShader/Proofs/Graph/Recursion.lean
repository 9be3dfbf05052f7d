import NodeShader.Proofs.Graph.Cuts

/-!
The order by recursion. To visit a node is to visit what feeds it, slot by slot, and then to list
it; marks tell the nodes whose visits are open from those that are done. The search that keeps its
visits on a stack lists the same nodes and cuts the same wires.
-/

namespace NodeShader

/-- How far the visit of a node has come. -/
inductive Mark where
  | opened
  | done
  deriving DecidableEq, Repr

/-- A sort under way: the marks of ids, the latest first, the nodes that are done, and the slots
whose wires lead back to a node with an open visit. -/
structure Sorting where
  marks : List (String × Mark)
  nodes : List Node
  backEdges : List (String × Nat)

namespace Sorting

def empty : Sorting := ⟨[], [], []⟩

def marked (sorting : Sorting) : List String := sorting.marks.map (·.1)

def mark? (sorting : Sorting) (id : String) : Option Mark := sorting.marks.lookup id

def start (sorting : Sorting) (node : Node) : Sorting :=
  { sorting with marks := (node.id, .opened) :: sorting.marks }

def finish (sorting : Sorting) (node : Node) : Sorting :=
  { sorting with
    marks := (node.id, .done) :: sorting.marks
    nodes := sorting.nodes ++ [node] }

def record (sorting : Sorting) (id : String) (slot : Nat) : Sorting :=
  { sorting with backEdges := sorting.backEdges ++ [(id, slot)] }

theorem mark?_eq_none_iff (sorting : Sorting) (id : String) :
    sorting.mark? id = none ↔ id ∉ sorting.marked := by
  simp only [mark?, marked, List.lookup_eq_none_iff, List.mem_map, bne_iff_ne, ne_eq, not_exists,
    not_and]
  exact forall₂_congr fun entry _ => not_congr eq_comm

theorem mark?_cons (sorting : Sorting) (id other : String) (mark : Mark) :
    { sorting with marks := (other, mark) :: sorting.marks }.mark? id =
      if id = other then some mark else sorting.mark? id := by
  unfold mark?
  rw [List.lookup_cons]
  by_cases same : id = other
  · simp [same]
  · simp [same, beq_eq_false_iff_ne.2 same]

theorem mark?_finish (sorting : Sorting) (node : Node) (id : String) :
    (sorting.finish node).mark? id = if id = node.id then some .done else sorting.mark? id :=
  mark?_cons sorting id node.id .done

end Sorting

namespace Graph

theorem effortOutside_anti {ids more : List String} (grown : ids ⊆ more) (nodes : List Node) :
    effortOutside more nodes ≤ effortOutside ids nodes := by
  induction nodes with
  | nil => exact Nat.le_refl _
  | cons node rest ih =>
    refine Nat.add_le_add ?_ ih
    by_cases known : node.id ∈ ids
    · simp [known, grown known]
    · simp only [List.contains_iff_mem, known, if_false]
      split <;> omega

/-- Beginning a visit leaves less to look at, by the node and its slots. -/
theorem effortOutside_start {sorting : Sorting} {node : Node} {nodes : List Node}
    (present : node ∈ nodes) (unmarked : sorting.mark? node.id = none) :
    effortOutside (sorting.start node).marked nodes + node.slots.length <
      effortOutside sorting.marked nodes := by
  have new : sorting.marked.contains node.id = false := by
    simpa using (sorting.mark?_eq_none_iff node.id).1 unmarked
  have less := effortOutside_cons_lt present new
  rwa [← List.length_range (n := node.inputs.length)] at less

/-- Goes through slots of a node: visits what feeds them and is not marked, and records those fed by
a node with an open visit. -/
def sortInputs (graph : Graph) (node : Node) (slots : List Nat) (sorting : Sorting) :
    { next : Sorting // sorting.marked ⊆ next.marked } :=
  match slots with
  | [] => ⟨sorting, List.Subset.refl _⟩
  | slot :: slots =>
    match _found : graph.feeder? node slot with
    | none => sortInputs graph node slots sorting
    | some target =>
      match _unmarked : sorting.mark? target.id with
      | some .done => sortInputs graph node slots sorting
      | some .opened =>
        let ⟨next, grown⟩ := sortInputs graph node slots (sorting.record node.id slot)
        ⟨next, grown⟩
      | none =>
        let ⟨inner, kept⟩ := sortInputs graph target target.slots (sorting.start target)
        let ⟨next, grown⟩ := sortInputs graph node slots (inner.finish target)
        ⟨next, fun _ known => grown (List.mem_cons_of_mem _ (kept (List.mem_cons_of_mem _ known)))⟩
termination_by effortOutside sorting.marked graph.nodes + slots.length
decreasing_by
  · simp
  · simp
  · exact Nat.lt_succ_self _
  · have less := effortOutside_start (feeder?_mem _found) _unmarked
    omega
  · have less := effortOutside_start (feeder?_mem _found) _unmarked
    have fewer : effortOutside (inner.finish target).marked graph.nodes ≤
        effortOutside (sorting.start target).marked graph.nodes :=
      effortOutside_anti (List.Subset.trans kept (List.subset_cons_self _ _)) graph.nodes
    rw [List.length_cons]
    omega

/-- Visits a node: opens its visit, goes through its slots, and lists it. -/
def sortNode (graph : Graph) (sorting : Sorting) (node : Node) : Sorting :=
  (graph.sortInputs node node.slots (sorting.start node)).1.finish node

/-- Looks at a slot of a node: visits what feeds it if that is not marked, and records the slot if
it is fed by a node with an open visit. -/
def sortInput (graph : Graph) (node : Node) (sorting : Sorting) (slot : Nat) : Sorting :=
  match graph.feeder? node slot with
  | none => sorting
  | some target =>
    match sorting.mark? target.id with
    | none => graph.sortNode sorting target
    | some .opened => sorting.record node.id slot
    | some .done => sorting

/-- Visits a node, unless its id is marked. -/
def sortRoot (graph : Graph) (sorting : Sorting) (node : Node) : Sorting :=
  match sorting.mark? node.id with
  | none => graph.sortNode sorting node
  | some _ => sorting

/-- All nodes in dependency order, by recursion. -/
def sorted (graph : Graph) : Sorting := graph.nodes.foldl graph.sortRoot .empty

open Search

variable {graph : Graph} {node target : Node} {slot : Nat} {slots : List Nat} {sorting : Sorting}

theorem sortInputs_nil : (graph.sortInputs node [] sorting).1 = sorting := by
  rw [sortInputs]

theorem sortInput_unfed (unfed : graph.feeder? node slot = none) :
    graph.sortInput node sorting slot = sorting := by
  rw [sortInput, unfed]

theorem sortInput_fed (feeds : graph.feeder? node slot = some target) :
    graph.sortInput node sorting slot = match sorting.mark? target.id with
      | none => graph.sortNode sorting target
      | some .opened => sorting.record node.id slot
      | some .done => sorting := by
  rw [sortInput, feeds]

theorem sortInputs_cons : (graph.sortInputs node (slot :: slots) sorting).1 =
    (graph.sortInputs node slots (graph.sortInput node sorting slot)).1 := by
  rw [sortInputs]
  split
  · next unfed => rw [sortInput_unfed unfed]
  · next target feeds =>
    rw [sortInput_fed feeds]
    split
    · next done => rw [done]
    · next opened => rw [opened]
    · next unmarked =>
      rw [unmarked]
      rfl

/-- Slots are looked at one after the other. -/
theorem sortInputs_eq_foldl :
    (graph.sortInputs node slots sorting).1 = slots.foldl (graph.sortInput node) sorting := by
  induction slots generalizing sorting with
  | nil => exact sortInputs_nil
  | cons slot slots ih => rw [sortInputs_cons, ih, List.foldl_cons]

/-- To visit a node is to look at its slots in order while it is open, and then to list it. -/
theorem sortNode_eq : graph.sortNode sorting node =
    (node.slots.foldl (graph.sortInput node) (sorting.start node)).finish node := by
  rw [sortNode, sortInputs_eq_foldl]

/-- A search and a sort that have seen the same: an open visit is one of a node that was entered and
is not listed. -/
structure Agrees (search : Search) (sorting : Sorting) : Prop where
  nodes : search.order.nodes = sorting.nodes
  cuts : search.order.cuts.map Cut.place = sorting.backEdges
  entered : ∀ id, id ∈ search.entered ↔ id ∈ sorting.marked
  listed : ∀ id, search.hasListed id = (sorting.mark? id == some .done)

namespace Agrees

variable {search : Search}

theorem empty : Agrees .start .empty where
  nodes := rfl
  cuts := rfl
  entered _ := Iff.rfl
  listed _ := rfl

theorem hasEntered (agrees : Agrees search sorting) (id : String) :
    search.hasEntered id = (sorting.mark? id).isSome := by
  rw [Bool.eq_iff_iff, hasEntered_iff, agrees.entered, ← Option.ne_none_iff_isSome, ne_eq,
    Sorting.mark?_eq_none_iff, not_not]

theorem enter (agrees : Agrees search sorting) (unmarked : sorting.mark? node.id = none) :
    Agrees (search.enter node) (sorting.start node) where
  nodes := agrees.nodes
  cuts := agrees.cuts
  entered id := by
    simp only [Search.enter, Sorting.start, Sorting.marked, List.map_cons, List.mem_cons]
    exact or_congr_right (agrees.entered id)
  listed id := by
    refine (agrees.listed id).trans ?_
    rw [Sorting.start, Sorting.mark?_cons]
    split
    · next same =>
      rw [same, unmarked]
      rfl
    · rfl

theorem list (agrees : Agrees search sorting) (known : node.id ∈ sorting.marked) :
    Agrees (search.list node) (sorting.finish node) where
  nodes := congrArg (· ++ [node]) agrees.nodes
  cuts := agrees.cuts
  entered id := by
    simp only [Search.list, Sorting.finish, Sorting.marked, List.map_cons, List.mem_cons]
    rw [agrees.entered]
    exact (or_iff_right_of_imp (· ▸ known)).symm
  listed id := by
    rw [hasListed_list, agrees.listed, Sorting.mark?_finish]
    by_cases same : id = node.id
    · simp [same]
    · simp [same, beq_eq_false_iff_ne.2 (Ne.symm same)]

theorem cut (agrees : Agrees search sorting) (cut : Cut) :
    Agrees (search.cut cut) (sorting.record cut.node cut.slot) where
  nodes := agrees.nodes
  cuts := by
    rw [Search.cut, List.map_append, agrees.cuts]
    rfl
  entered := agrees.entered
  listed := agrees.listed

end Agrees

/-- A search does with a slot what the mark of the node that feeds it tells. -/
theorem finish_marked {search : Search} {outer : List Visit} (agrees : Agrees search sorting)
    (feeds : graph.feeder? node slot = some target) :
    graph.finish (⟨node, slot :: slots⟩ :: outer) search =
      match sorting.mark? target.id with
      | none =>
        graph.finish (⟨target, target.slots⟩ :: ⟨node, slots⟩ :: outer) (search.enter target)
      | some .opened =>
        graph.finish (⟨node, slots⟩ :: outer) (search.cut ⟨node.id, slot, target.id⟩)
      | some .done => graph.finish (⟨node, slots⟩ :: outer) search := by
  rw [finish_fed feeds, agrees.hasEntered, agrees.listed]
  cases sorting.mark? target.id with
  | none => rfl
  | some mark => cases mark <;> rfl

/-- A search finishes its innermost visit as the recursion goes through the slots. -/
theorem finish_sortInputs {search : Search} (agrees : Agrees search sorting) :
    ∃ next, Agrees next (graph.sortInputs node slots sorting).1 ∧
      ∀ outer, graph.finish (⟨node, slots⟩ :: outer) search =
        graph.finish (⟨node, []⟩ :: outer) next := by
  induction node, slots, sorting using sortInputs.induct graph generalizing search with
  | case1 node sorting => exact ⟨search, by rwa [sortInputs_nil], fun _ => rfl⟩
  | case2 node sorting slot slots unfed ih =>
    obtain ⟨next, agrees', same⟩ := ih agrees
    refine ⟨next, ?_, fun outer => ?_⟩
    · rwa [sortInputs_cons, sortInput_unfed unfed]
    · rw [finish_unfed unfed, same]
  | case3 node sorting slot slots target feeds done ih =>
    obtain ⟨next, agrees', same⟩ := ih agrees
    refine ⟨next, ?_, fun outer => ?_⟩
    · rwa [sortInputs_cons, sortInput_fed feeds, done]
    · rw [finish_marked agrees feeds, done, ← same]
  | case4 node sorting slot slots target feeds opened _ _ _ ih =>
    obtain ⟨next, agrees', same⟩ := ih (agrees.cut ⟨node.id, slot, target.id⟩)
    refine ⟨next, ?_, fun outer => ?_⟩
    · rwa [sortInputs_cons, sortInput_fed feeds, opened]
    · rw [finish_marked agrees feeds, opened, ← same]
  | case5 node sorting slot slots target feeds unmarked inner kept visited _ _ _ ih ih' =>
    obtain ⟨middle, agrees', same⟩ := ih (agrees.enter unmarked)
    rw [visited] at agrees'
    obtain ⟨next, agrees', same'⟩ := ih' (agrees'.list (kept List.mem_cons_self))
    refine ⟨next, ?_, fun outer => ?_⟩
    · rwa [sortInputs_cons, sortInput_fed feeds, unmarked, sortNode, visited]
    · rw [finish_marked agrees feeds, unmarked]
      exact (same _).trans (finish_list.trans (same' outer))

theorem Agrees.visit {search : Search} (agrees : Agrees search sorting) (node : Node) :
    Agrees (graph.visit search node) (graph.sortRoot sorting node) := by
  rw [Graph.visit, agrees.hasEntered, sortRoot]
  cases mark : sorting.mark? node.id with
  | some mark => exact agrees
  | none =>
    obtain ⟨next, agrees', same⟩ := finish_sortInputs (agrees.enter mark)
    have listed : Agrees (next.list node) (graph.sortNode sorting node) :=
      agrees'.list ((graph.sortInputs node node.slots _).2 List.mem_cons_self)
    have finished := (same []).trans (finish_list.trans finish_nil)
    simpa [finished] using listed

theorem Agrees.visits {search : Search} (agrees : Agrees search sorting) (roots : List Node) :
    Agrees (roots.foldl graph.visit search) (roots.foldl graph.sortRoot sorting) := by
  induction roots generalizing search sorting with
  | nil => exact agrees
  | cons root roots ih => exact ih (agrees.visit root)

/-- The search that keeps its visits on a stack is the recursive sort: it lists the same nodes and
cuts the same wires, both in the same order. To visit a node, the recursive sort opens its visit,
looks at its slots in order, and lists it. -/
theorem order_eq_sorted (graph : Graph) :
    graph.order.nodes = graph.sorted.nodes ∧
      graph.order.cuts.map Cut.place = graph.sorted.backEdges ∧
      ∀ sorting node, graph.sortNode sorting node =
        (node.slots.foldl (graph.sortInput node) (sorting.start node)).finish node := by
  have agrees : Agrees (graph.nodes.foldl graph.visit .start) graph.sorted :=
    Agrees.empty.visits graph.nodes
  exact ⟨agrees.nodes, agrees.cuts, fun _ _ => sortNode_eq⟩

end Graph

end NodeShader
