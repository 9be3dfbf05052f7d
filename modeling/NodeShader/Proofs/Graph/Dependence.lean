import Mathlib.Data.List.Chain
import Mathlib.Logic.Relation
import NodeShader.Proofs.Graph.Search

/-!
What nodes need of one another. The search lists a node after all that it needs, unless the node lies
on a cycle, and it cuts a wire only where the wire's end lies on a cycle.
-/

namespace NodeShader

namespace Graph

open Search Relation

/-- A node that reads another one through one of its slots. -/
def Reads (graph : Graph) (node target : Node) : Prop :=
  ∃ slot, graph.feeder? node slot = some target

/-- A node that needs itself. -/
def OnCycle (graph : Graph) (node : Node) : Prop := TransGen graph.Reads node node

variable {graph : Graph} {node target : Node} {visits visits' : List Visit}
  {search search' : Search}

theorem Reads.first (reads : graph.Reads node target) : graph.find? target.id = some target := by
  rcases reads with ⟨slot, feeds⟩
  exact feeder?_first feeds

theorem first_of_transGen (needs : TransGen graph.Reads node target) :
    graph.find? target.id = some target := by
  rcases TransGen.tail'_iff.1 needs with ⟨_, _, reads⟩
  exact reads.first

theorem first_of_needs (first : graph.find? node.id = some node)
    (needs : ReflTransGen graph.Reads node target) : graph.find? target.id = some target := by
  rcases reflTransGen_iff_eq_or_transGen.1 needs with rfl | needs
  · exact first
  · exact first_of_transGen needs

/-- What a node of closed ids needs is among them. -/
theorem IsClosed.needs {ids : List String} (closed : graph.IsClosed ids)
    (first : graph.find? node.id = some node) (member : node.id ∈ ids)
    (needs : ReflTransGen graph.Reads node target) : target.id ∈ ids := by
  induction needs with
  | refl => exact member
  | @tail middle target needs reads ih =>
    rcases reads with ⟨slot, feeds⟩
    exact closed middle slot target (first_of_needs first needs) ih feeds

/-- The closure of a node holds just what the node needs. -/
theorem mem_closure_iff (first : graph.find? node.id = some node) {id : String} :
    id ∈ graph.closure node.id ↔
      ∃ target, target.id = id ∧ ReflTransGen graph.Reads node target := by
  constructor
  · intro member
    classical
    let needed := (graph.nodes.map (·.id)).filter fun id =>
      decide (∃ target, target.id = id ∧ ReflTransGen graph.Reads node target)
    have mem_needed {target : Node} (needs : ReflTransGen graph.Reads node target)
        (found : graph.find? target.id = some target) : target.id ∈ needed :=
      List.mem_filter.2 ⟨List.mem_map_of_mem (find?_mem found), by simpa using ⟨target, rfl, needs⟩⟩
    have closed : graph.IsClosed needed := by
      intro other slot target found inside feeds
      rcases of_decide_eq_true (List.mem_filter.1 inside).2 with ⟨known, same, needs⟩
      have found' := first_of_needs first needs
      rw [same, found] at found'
      cases found'
      exact mem_needed (needs.tail ⟨slot, feeds⟩) (feeder?_first feeds)
    have inside := closure_subset closed (fun _ => mem_needed .refl first) member
    exact of_decide_eq_true (List.mem_filter.1 inside).2
  · intro needed
    rcases needed with ⟨target, rfl, needs⟩
    exact (graph.closure_isClosed node.id).needs first (mem_closure_self (by rw [first]; rfl)) needs

/-- The visits under way lead from each node to those further in; what is listed and not on a cycle
was listed after all that it needs. -/
structure Nested (graph : Graph) (visits : List Visit) (search : Search) : Prop where
  path : (visits.map (·.node)).IsChain fun inner outer => graph.Reads outer inner
  ahead : ∀ before node after, search.order.nodes = before ++ node :: after →
    ¬ graph.OnCycle node → ∀ target, TransGen graph.Reads node target → target ∈ before
  cut : ∀ cut ∈ search.order.cuts, ∀ node, graph.find? cut.node = some node → graph.OnCycle node

/-- Along a path from within, all nodes lead to the innermost one. -/
theorem leads_of_path {R : Node → Node → Prop} {nodes : List Node}
    (path : (node :: nodes).IsChain fun inner outer => R outer inner) :
    ∀ outer ∈ node :: nodes, ReflTransGen R outer node := by
  induction nodes generalizing node with
  | nil => simp [ReflTransGen.refl]
  | cons next nodes ih =>
    rw [List.isChain_cons_cons] at path
    intro outer member
    rcases List.mem_cons.1 member with rfl | member
    · exact .refl
    · exact (ih path.2 outer member).tail path.1

/-- What was entered is listed, or being visited and so in need of the innermost node. -/
theorem Nested.entered {slots : List Nat} {outer : List Visit}
    (nested : graph.Nested (⟨node, slots⟩ :: outer) search)
    (sound : Underway graph (⟨node, slots⟩ :: outer) search)
    (first : graph.find? target.id = some target) (entered : target.id ∈ search.entered) :
    target ∈ search.order.nodes ∨ ReflTransGen graph.Reads target node := by
  rcases List.mem_append.1 (sound.mem_of_entered first entered) with visited | listed
  · exact .inr (leads_of_path nested.path target visited)
  · exact .inl listed

theorem Step.nested (step : graph.Step visits search visits' search')
    (sound : Underway graph visits search) (explored : graph.Explored visits search)
    (nested : graph.Nested visits search) : graph.Nested visits' search' := by
  cases step with
  | unfed | known => exact ⟨nested.path, nested.ahead, nested.cut⟩
  | enter feeds =>
    exact ⟨List.isChain_cons_cons.2 ⟨⟨_, feeds⟩, nested.path⟩, nested.ahead, nested.cut⟩
  | @cut node target slot slots outer _ feeds entered unlisted =>
    refine ⟨nested.path, nested.ahead, fun cut member other found => ?_⟩
    rcases List.mem_append.1 member with member | member
    · exact nested.cut cut member other found
    · rw [List.mem_singleton.1 member] at found
      have first := sound.first node (by simp)
      rw [first] at found
      cases found
      have known := (hasEntered_iff search target.id).1 entered
      rcases nested.entered sound (feeder?_first feeds) known with listed | needs
      · exact absurd ((hasListed_iff search target.id).2 ⟨target, listed, rfl⟩) unlisted
      · exact TransGen.head' ⟨slot, feeds⟩ needs
  | @list node outer =>
    refine ⟨?_, fun before other after split acyclic target needs => ?_, nested.cut⟩
    · exact nested.path.tail
    rcases split_concat split with ⟨rfl, rfl⟩ | ⟨rest, earlier⟩
    · -- by induction on the way there: what was entered is listed, for it does not need the node
      have settled {target : Node} (needs : TransGen graph.Reads other target)
          (entered : target.id ∈ search.entered) : target ∈ search.order.nodes := by
        refine (nested.entered sound (first_of_transGen needs) entered).resolve_right ?_
        exact fun back => acyclic (needs.trans_left back)
      induction needs with
      | single reads =>
        rcases reads with ⟨slot, feeds⟩
        exact settled (.single ⟨slot, feeds⟩)
          (explored.looked _ List.mem_cons_self slot _ List.not_mem_nil feeds)
      | tail needs reads ih =>
        rcases reads with ⟨slot, feeds⟩
        exact settled (needs.tail ⟨slot, feeds⟩) (explored.listed _ ih slot _ feeds)
    · exact nested.ahead before other rest earlier acyclic target needs

/-- What holds at the start, when the visit of a root begins, and after each step of nested visits
that keeps it, holds of the whole search. -/
theorem nested_keeps {I : List Visit → Search → Prop} (holds : I [] .start)
    (begin : ∀ node search, I [] search → node.id ∉ search.entered →
      I [⟨node, node.slots⟩] (search.enter node))
    (step : ∀ {visits search visits' search'}, graph.Step visits search visits' search' →
      Underway graph visits search → graph.Nested visits search → I visits search →
      I visits' search') :
    graph.Nested [] (graph.nodes.foldl graph.visit .start) ∧
      I [] (graph.nodes.foldl graph.visit .start) := by
  have start : graph.Nested [] .start := ⟨.nil, by simp [Search.start], by simp [Search.start]⟩
  refine (search_keeps (I := fun visits search => Underway graph visits search ∧
    graph.Explored visits search ∧ graph.Nested visits search ∧ I visits search)
    (List.append_nil _).symm ⟨.start, .start, start, holds⟩ ?_ ?_).2.2
  · intro node search kept first new
    rcases kept with ⟨sound, explored, nested, holds⟩
    exact ⟨sound.enter first new, (explored.enter node).begin node,
      ⟨List.isChain_singleton node, nested.ahead, nested.cut⟩, begin node search holds new⟩
  · intro visits search visits' search' taken kept
    rcases kept with ⟨sound, explored, nested, holds⟩
    exact ⟨taken.underway sound, taken.explored sound explored, taken.nested sound explored nested,
      step taken sound nested holds⟩

theorem order_nested (graph : Graph) :
    graph.Nested [] (graph.nodes.foldl graph.visit .start) :=
  (nested_keeps (I := fun _ _ => True) trivial (fun _ _ _ _ => trivial)
    fun _ _ _ _ => trivial).1

/-- A node on no cycle is listed after all that it needs. -/
theorem needs_before {before after : List Node} (split : graph.order.nodes = before ++ node :: after)
    (acyclic : ¬ graph.OnCycle node) (needs : TransGen graph.Reads node target) : target ∈ before :=
  graph.order_nested.ahead before node after split acyclic target needs

/-- Only wires into nodes on cycles are cut. -/
theorem not_isCut (first : graph.find? node.id = some node) (acyclic : ¬ graph.OnCycle node)
    (slot : Nat) : graph.order.isCut node.id slot = false := by
  by_contra cut
  rw [Bool.not_eq_false, Order.isCut, List.any_eq_true] at cut
  rcases cut with ⟨cut, member, here⟩
  rw [Bool.and_eq_true, beq_iff_eq] at here
  exact acyclic (graph.order_nested.cut cut member node (here.1 ▸ first))

end Graph

end NodeShader
