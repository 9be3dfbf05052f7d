import NodeShader.Proofs.Graph.Dependence

/-!
Which wires the search cuts: just those that come from a node listed later. When a wire is cut, the
visits under way lead from the node it comes from to the one it ends in, so it closes a cycle of
which no other wire is cut; and a graph without cycles has no cuts.
-/

namespace NodeShader

/-- The slot in which a cut wire ends, with its node. -/
def Cut.place (cut : Cut) : String × Nat := (cut.node, cut.slot)

/-- A node that stands before another one. -/
def Order.Precedes (order : Order) (earlier later : Node) : Prop :=
  ∃ before after, order.nodes = before ++ after ∧ earlier ∈ before ∧ later ∈ after

namespace Order

variable {graph : Graph} {order : Order} {node earlier later : Node}

theorem isCut_iff (order : Order) (id : String) (slot : Nat) :
    order.isCut id slot = true ↔ (id, slot) ∈ order.cuts.map Cut.place := by
  simp [isCut, Cut.place]

theorem Precedes.left_mem (precedes : order.Precedes earlier later) : earlier ∈ order.nodes := by
  rcases precedes with ⟨before, after, split, member, -⟩
  exact split ▸ List.mem_append_left _ member

theorem Precedes.right_mem (precedes : order.Precedes earlier later) : later ∈ order.nodes := by
  rcases precedes with ⟨before, after, split, -, member⟩
  exact split ▸ List.mem_append_right _ member

theorem Precedes.of_sublist (placed : [earlier, later].Sublist order.nodes) :
    order.Precedes earlier later := by
  rcases List.cons_sublist_iff.1 placed with ⟨before, after, split, member, rest⟩
  exact ⟨before, after, split, member, List.singleton_sublist.1 rest⟩

theorem Sound.not_precedes (sound : order.Sound graph) (precedes : order.Precedes earlier later) :
    ¬ order.Precedes later earlier := by
  intro back
  rcases precedes with ⟨before, after, split, member, member'⟩
  rcases back with ⟨before', after', split', late, early⟩
  rcases List.append_eq_append_iff.1 (split.symm.trans split') with
    ⟨middle, rfl, rfl⟩ | ⟨middle, rfl, rfl⟩
  · exact sound.other_id split' (List.mem_append_left _ member) early rfl
  · exact sound.other_id split (List.mem_append_left _ late) member' rfl

end Order

namespace Search

/-- The nodes listed and then those being visited, the innermost first: so they will be listed. -/
def arranged (search : Search) (visits : List Visit) : List Node :=
  search.order.nodes ++ visits.map (·.node)

/-- The slots still to be looked at differ and none of their wires is cut; no wire is cut twice. -/
structure Fresh (search : Search) (visits : List Visit) : Prop where
  slots : ∀ visit ∈ visits, visit.slots.Nodup
  uncut : ∀ visit ∈ visits, ∀ slot ∈ visit.slots, search.order.isCut visit.node.id slot = false
  known : ∀ cut ∈ search.order.cuts, cut.node ∈ search.entered
  once : (search.order.cuts.map Cut.place).Nodup

namespace Fresh

variable {graph : Graph} {search : Search} {node : Node} {slot : Nat} {slots : List Nat}
  {outer visits : List Visit}

theorem start : Fresh .start [] where
  slots := List.forall_mem_nil _
  uncut := List.forall_mem_nil _
  known := List.forall_mem_nil _
  once := List.nodup_nil

theorem advance (fresh : search.Fresh (⟨node, slot :: slots⟩ :: outer)) :
    search.Fresh (⟨node, slots⟩ :: outer) where
  slots := by
    have both := List.forall_mem_cons.1 fresh.slots
    exact List.forall_mem_cons.2 ⟨(List.nodup_cons.1 both.1).2, both.2⟩
  uncut := by
    have both := List.forall_mem_cons.1 fresh.uncut
    exact List.forall_mem_cons.2
      ⟨fun other left => both.1 other (List.mem_cons_of_mem _ left), both.2⟩
  known := fresh.known
  once := fresh.once

theorem cut (fresh : search.Fresh (⟨node, slot :: slots⟩ :: outer))
    (sound : Underway graph (⟨node, slot :: slots⟩ :: outer) search) (target : String) :
    (search.cut ⟨node.id, slot, target⟩).Fresh (⟨node, slots⟩ :: outer) where
  slots := fresh.advance.slots
  uncut := by
    intro visit member other left
    rw [isCut_cut, Bool.or_eq_false_iff]
    refine ⟨fresh.advance.uncut visit member other left, ?_⟩
    rw [Bool.and_eq_false_iff, beq_eq_false_iff_ne, beq_eq_false_iff_ne]
    rcases List.mem_cons.1 member with rfl | member
    · right
      rintro rfl
      exact (List.nodup_cons.1 (fresh.slots _ List.mem_cons_self)).1 left
    · left
      have apart := (List.nodup_cons.1 (List.nodup_append.1 sound.distinct).1).1
      exact fun same => apart (List.mem_map.2 ⟨visit, member, same.symm⟩)
  known := by
    intro cut member
    rcases List.mem_append.1 member with member | member
    · exact fresh.known cut member
    · rw [List.mem_singleton.1 member, Search.cut, sound.entered]
      exact List.mem_cons_self
  once := by
    have here := fresh.uncut _ List.mem_cons_self slot List.mem_cons_self
    rw [Bool.eq_false_iff, ne_eq, Order.isCut_iff] at here
    rw [Search.cut, List.map_append, List.nodup_append]
    refine ⟨fresh.once, List.pairwise_singleton _ _, fun place member other given same => ?_⟩
    rw [List.map_singleton, List.mem_singleton] at given
    rw [same, given] at member
    exact here member

theorem enter (fresh : search.Fresh visits) (new : node.id ∉ search.entered) :
    (search.enter node).Fresh (⟨node, node.slots⟩ :: visits) where
  slots := List.forall_mem_cons.2 ⟨List.nodup_range, fresh.slots⟩
  uncut := by
    refine List.forall_mem_cons.2 ⟨fun slot _ => ?_, fresh.uncut⟩
    rw [Bool.eq_false_iff, ne_eq, Order.isCut_iff]
    intro cut
    rcases List.mem_map.1 cut with ⟨cut, member, same⟩
    have known := fresh.known cut member
    rw [(Prod.mk.inj same).1] at known
    exact new known
  known cut member := List.mem_cons_of_mem _ (fresh.known cut member)
  once := fresh.once

end Fresh

end Search

/-- A cut wire that closes a cycle of nodes listed one after the other: the first is the one with
the cut, each is read by the next, and the wire comes from the last. -/
inductive Cut.Closes (graph : Graph) (nodes : List Node) : Cut → Prop where
  | cycle {node target : Node} {slot : Nat} {between : List Node}
      (feeds : graph.feeder? node slot = some target)
      (path : (node :: (between ++ [target])).IsChain fun inner outer => graph.Reads outer inner)
      (placed : (node :: (between ++ [target])).Sublist nodes) :
      Closes graph nodes ⟨node.id, slot, target.id⟩

namespace Graph

open Search Relation

variable {graph : Graph} {node target : Node} {slot : Nat} {visits visits' : List Visit}
  {search search' : Search}

theorem Step.arranged (step : graph.Step visits search visits' search') :
    (search.arranged visits).Sublist (search'.arranged visits') := by
  cases step with
  | list => simp [Search.arranged, Search.list]
  | unfed | known | cut => exact List.Sublist.refl _
  | enter => exact List.Sublist.append_left (List.sublist_cons_self _ _) _

theorem Step.fresh (step : graph.Step visits search visits' search')
    (sound : Underway graph visits search) (fresh : search.Fresh visits) :
    search'.Fresh visits' := by
  cases step with
  | list =>
    exact ⟨(List.forall_mem_cons.1 fresh.slots).2, (List.forall_mem_cons.1 fresh.uncut).2,
      fresh.known, fresh.once⟩
  | unfed | known => exact fresh.advance
  | cut => exact fresh.cut sound _
  | enter _ new =>
    rw [hasEntered_iff] at new
    exact fresh.advance.enter new

theorem Step.closes (step : graph.Step visits search visits' search')
    (sound : Underway graph visits search) (nested : graph.Nested visits search)
    (closes : ∀ cut ∈ search.order.cuts, cut.Closes graph (search.arranged visits)) :
    ∀ cut ∈ search'.order.cuts, cut.Closes graph (search'.arranged visits') := by
  have kept : ∀ cut ∈ search.order.cuts, cut.Closes graph (search'.arranged visits') := by
    intro cut member
    rcases closes cut member with ⟨feeds, path, placed⟩
    exact ⟨feeds, path, placed.trans step.arranged⟩
  cases step with
  | list | unfed | known | enter => exact kept
  | @cut node target slot slots outer _ feeds entered unlisted =>
    intro cut member
    rcases List.mem_append.1 member with member | member
    · exact kept cut member
    rw [List.mem_singleton.1 member]
    -- the target was entered and is not listed, so its visit is further out
    have visited : target ∈ outer.map (·.node) := by
      have known := (hasEntered_iff search target.id).1 entered
      have inside := sound.mem_of_entered (feeder?_first feeds) known
      rcases List.mem_append.1 inside with visited | listed
      · rcases List.mem_cons.1 visited with rfl | visited
        · exact absurd rfl (feeder?_id_ne feeds)
        · exact visited
      · exact absurd ((hasListed_iff search target.id).2 ⟨target, listed, rfl⟩) unlisted
    rcases List.append_of_mem visited with ⟨between, rest, split⟩
    have whole : (Visit.mk node (slot :: slots) :: outer).map (·.node) =
        (node :: (between ++ [target])) ++ rest := by simp [split]
    have path := nested.path
    rw [whole] at path
    have placed : (node :: (between ++ [target])).Sublist
        (search.arranged (⟨node, slot :: slots⟩ :: outer)) := by
      rw [Search.arranged, whole]
      exact (List.sublist_append_left _ _).trans (List.sublist_append_right _ _)
    exact .cycle feeds path.left_of_append placed

theorem order_fresh (graph : Graph) : (graph.nodes.foldl graph.visit .start).Fresh [] := by
  refine (nested_keeps (I := fun visits search => search.Fresh visits) .start ?_ ?_).2
  · exact fun node search fresh new => fresh.enter new
  · exact fun step sound _ fresh => step.fresh sound fresh

theorem order_closes (graph : Graph) {cut : Cut} (member : cut ∈ graph.order.cuts) :
    cut.Closes graph graph.order.nodes := by
  let ends := graph.nodes.foldl graph.visit .start
  have closes : ∀ cut ∈ ends.order.cuts, cut.Closes graph (ends.arranged []) := by
    refine (nested_keeps (I := fun visits search =>
      ∀ cut ∈ search.order.cuts, cut.Closes graph (search.arranged visits)) ?_ ?_ ?_).2
    · simp [Search.start]
    · intro node search closes _ cut member
      rcases closes cut member with ⟨feeds, path, placed⟩
      refine .cycle feeds path (placed.trans ?_)
      simp [Search.arranged, Search.enter]
    · exact fun step sound nested closes => step.closes sound nested closes
  rw [← List.append_nil graph.order.nodes]
  exact closes cut member

theorem closes_of_isCut {id : String} (cut : graph.order.isCut id slot = true) :
    ∃ target, Cut.Closes graph graph.order.nodes ⟨id, slot, target⟩ := by
  rcases List.mem_map.1 ((Order.isCut_iff _ _ _).1 cut) with ⟨wire, member, same⟩
  cases same
  exact ⟨wire.target, graph.order_closes member⟩

/-- A slot whose wire is cut is fed by a node that is listed later. -/
theorem precedes_of_isCut {id : String} (cut : graph.order.isCut id slot = true) :
    ∃ node target, node.id = id ∧ graph.feeder? node slot = some target ∧
      graph.order.Precedes node target := by
  rcases closes_of_isCut cut with ⟨_, feeds, -, placed⟩
  refine ⟨_, _, rfl, feeds, .of_sublist (List.Sublist.trans ?_ placed)⟩
  simp

/-- A slot is fed by a node that is listed earlier just when its wire is not cut. -/
theorem isCut_eq_false_iff (member : node ∈ graph.order.nodes)
    (feeds : graph.feeder? node slot = some target) :
    graph.order.isCut node.id slot = false ↔ graph.order.Precedes target node := by
  have sound := graph.order_sound
  constructor
  · intro uncut
    rcases List.append_of_mem member with ⟨before, after, split⟩
    have earlier := sound.fed before node after split slot target feeds uncut
    exact ⟨before, node :: after, split, earlier, List.mem_cons_self⟩
  · intro precedes
    by_contra cut
    rw [Bool.not_eq_false] at cut
    rcases precedes_of_isCut cut with ⟨other, later, same, feeds', behind⟩
    have first := sound.first other behind.left_mem
    rw [same, sound.first node member] at first
    cases first
    rw [feeds] at feeds'
    cases feeds'
    exact sound.not_precedes precedes behind

/-- Of every id the order lists the first node, once. The cut wires are those between nodes of the
order that come from a node listed later, and none is cut twice; a wire that is not cut comes from a
node listed earlier. -/
theorem order_respects_wires (graph : Graph) :
    (∀ id, graph.order.nodes.filter (·.id == id) = (graph.find? id).toList) ∧
      (∀ id slot, graph.order.isCut id slot = true ↔
        ∃ node target, node.id = id ∧ graph.feeder? node slot = some target ∧
          graph.order.Precedes node target) ∧
      (∀ node ∈ graph.order.nodes, ∀ slot target, graph.feeder? node slot = some target →
        (graph.order.isCut node.id slot = false ↔ graph.order.Precedes target node)) ∧
      (graph.order.cuts.map Cut.place).Nodup := by
  have sound := graph.order_sound
  refine ⟨fun id => ?_, fun id slot => ⟨precedes_of_isCut, ?_⟩, fun node member slot target feeds =>
    isCut_eq_false_iff member feeds, graph.order_fresh.once⟩
  · cases found : graph.find? id with
    | some node =>
      rw [← find?_id found]
      exact filter_id_eq sound.distinct (order_complete found)
    | none =>
      rw [Option.toList_none, List.filter_eq_nil_iff]
      intro node member same
      have first := sound.first node member
      rw [beq_iff_eq.1 same, found] at first
      cases first
  · intro given
    rcases given with ⟨node, target, rfl, feeds, precedes⟩
    by_contra uncut
    rw [Bool.not_eq_true, isCut_eq_false_iff precedes.left_mem feeds] at uncut
    exact sound.not_precedes precedes uncut

/-- A node that reads another one through a wire that is not cut. -/
def ReadsUncut (graph : Graph) (node target : Node) : Prop :=
  ∃ slot, graph.feeder? node slot = some target ∧ graph.order.isCut node.id slot = false

theorem ReadsUncut.reads (reads : graph.ReadsUncut node target) : graph.Reads node target := by
  rcases reads with ⟨slot, feeds, -⟩
  exact ⟨slot, feeds⟩

theorem Reads.uncut (reads : graph.Reads node target)
    (precedes : graph.order.Precedes target node) : graph.ReadsUncut node target := by
  rcases reads with ⟨slot, feeds⟩
  exact ⟨slot, feeds, (isCut_eq_false_iff precedes.right_mem feeds).2 precedes⟩

/-- What a node needs through wires that are not cut is listed before it. -/
theorem needs_uncut_before {before after : List Node}
    (split : graph.order.nodes = before ++ node :: after)
    (needs : TransGen graph.ReadsUncut node target) : target ∈ before := by
  induction needs with
  | single reads =>
    rcases reads with ⟨slot, feeds, uncut⟩
    exact graph.order_sound.fed before node after split slot _ feeds uncut
  | tail _ reads ih =>
    rcases reads with ⟨slot, feeds, uncut⟩
    rcases List.append_of_mem ih with ⟨front, back, rfl⟩
    have split' := split.trans (List.append_assoc front _ _)
    have earlier := graph.order_sound.fed front _ _ split' slot _ feeds uncut
    exact List.mem_append_left _ earlier

/-- So the wires that are not cut form no cycle. -/
theorem not_needs_uncut_self (node : Node) : ¬ TransGen graph.ReadsUncut node node := by
  intro cycle
  have first := first_of_transGen (TransGen.mono (fun _ _ reads => reads.reads) _ _ cycle)
  rcases List.append_of_mem (order_complete first) with ⟨before, after, split⟩
  exact graph.order_sound.other_id split (needs_uncut_before split cycle) List.mem_cons_self rfl

/-- Nodes that are listed one after the other, each read by the next, are read through wires that
are not cut. -/
theorem isChain_uncut {nodes : List Node}
    (path : nodes.IsChain fun inner outer => graph.Reads outer inner)
    (placed : nodes.Sublist graph.order.nodes) :
    nodes.IsChain fun inner outer => graph.ReadsUncut outer inner := by
  induction path with
  | nil => exact .nil
  | singleton node => exact .singleton node
  | @cons_cons inner outer rest reads _ ih =>
    have precedes : graph.order.Precedes inner outer :=
      .of_sublist (List.Sublist.trans (by simp) placed)
    exact .cons_cons (reads.uncut precedes) (ih ((List.sublist_cons_self _ _).trans placed))

/-- A wire is cut only where the node it comes from needs the one it ends in, through wires that are
not cut. -/
theorem exists_cycle_of_isCut {id : String} (cut : graph.order.isCut id slot = true) :
    ∃ node target, graph.find? id = some node ∧ graph.feeder? node slot = some target ∧
      ReflTransGen graph.ReadsUncut target node := by
  rcases closes_of_isCut cut with ⟨_, feeds, path, placed⟩
  have first := graph.order_sound.first _ (placed.subset List.mem_cons_self)
  have leads := leads_of_path (isChain_uncut path placed)
  exact ⟨_, _, first, feeds, leads _ (by simp)⟩

/-- Each cut wire closes a cycle of which it is the only cut wire, and a graph has no cut wires just
when it has no cycles. -/
theorem cuts_close_cycles (graph : Graph) :
    (∀ id slot, graph.order.isCut id slot = true → ∃ node target, graph.find? id = some node ∧
      graph.feeder? node slot = some target ∧ ReflTransGen graph.ReadsUncut target node ∧
        graph.OnCycle node) ∧
      (graph.order.cuts.length = 0 ↔ ∀ node, ¬ graph.OnCycle node) := by
  have cycles (id : String) (slot : Nat) (cut : graph.order.isCut id slot = true) :
      ∃ node target, graph.find? id = some node ∧ graph.feeder? node slot = some target ∧
        ReflTransGen graph.ReadsUncut target node ∧ graph.OnCycle node := by
    rcases exists_cycle_of_isCut cut with ⟨node, target, first, feeds, leads⟩
    have needs := ReflTransGen.mono (fun _ _ reads => reads.reads) _ _ leads
    exact ⟨node, target, first, feeds, leads, .head' ⟨slot, feeds⟩ needs⟩
  refine ⟨cycles, fun none_cut node cycle => ?_, fun acyclic => ?_⟩
  · rw [List.length_eq_zero_iff] at none_cut
    have uncut (other target : Node) (reads : graph.Reads other target) :
        graph.ReadsUncut other target := by
      rcases reads with ⟨slot, feeds⟩
      exact ⟨slot, feeds, by simp [Order.isCut, none_cut]⟩
    exact not_needs_uncut_self node (TransGen.mono uncut _ _ cycle)
  · rw [List.length_eq_zero_iff, List.eq_nil_iff_forall_not_mem]
    intro cut member
    rcases cycles cut.node cut.slot ((Order.isCut_iff _ _ _).2 (List.mem_map_of_mem member)) with
      ⟨node, -, -, -, -, cycle⟩
    exact acyclic node cycle

/-- Of two nodes that read each other the first is entered first and so listed last. -/
example :
    let graph : Graph := ⟨[⟨"x", "Add", [some "y"], []⟩, ⟨"y", "Add", [some "x"], []⟩], []⟩
    graph.order.ids = ["y", "x"] ∧ graph.order.cuts = [⟨"y", 0, "x"⟩] := by
  decide +kernel

end Graph

end NodeShader
