import Mathlib.Tactic.Tauto
import NodeShader.Graph.Order

/-!
What the depth-first search keeps true, and what its order gives: every listed node is the one its
id stands for, no id is listed twice, and a wire that is not cut comes from an earlier node.
-/

namespace NodeShader

theorem Node.mem_slots {node : Node} {slot : Nat} {id : String}
    (wired : node.input? slot = some id) : slot ∈ node.slots := by
  rcases Nat.lt_or_ge slot node.inputs.length with inside | outside
  · exact List.mem_range.2 inside
  · rw [Node.input?, List.getElem?_eq_none outside] at wired
    cases wired

theorem Graph.input?_eq_some_iff {node : Node} {slot : Nat} {id : String} :
    node.input? slot = some id ↔
      node.inputs[slot]? = some (some id) ∧ id ≠ "" ∧ id ≠ node.id := by
  unfold Node.input?
  split
  · next other wired =>
    rw [wired]
    simp only [Option.ite_none_left_eq_some, Bool.or_eq_true, String.isEmpty_iff, beq_iff_eq,
      not_or, Option.some.injEq]
    constructor
    · intro given
      rcases given with ⟨proper, rfl⟩
      exact ⟨rfl, proper⟩
    · intro given
      rcases given with ⟨rfl, proper⟩
      exact ⟨proper, rfl⟩
  · next unwired =>
    constructor
    · intro h
      cases h
    · intro given
      rcases given with ⟨wired, -⟩
      exact absurd wired (unwired id)

/-- What compiling relies on: nodes are the ones their ids stand for, none is listed twice, and
what feeds a node without a cut stands before it. -/
structure Order.Sound (graph : Graph) (order : Order) : Prop where
  first : ∀ node ∈ order.nodes, graph.find? node.id = some node
  distinct : order.ids.Nodup
  fed : ∀ before node after, order.nodes = before ++ node :: after →
    ∀ slot target, graph.feeder? node slot = some target →
      order.isCut node.id slot = false → target ∈ before

theorem Order.Sound.other_id {graph : Graph} {order : Order} (sound : order.Sound graph)
    {before after : List Node} (split : order.nodes = before ++ after) {earlier later : Node}
    (member : earlier ∈ before) (member' : later ∈ after) : earlier.id ≠ later.id := by
  have distinct := sound.distinct
  rw [Order.ids, split, List.map_append] at distinct
  exact (List.nodup_append.1 distinct).2.2 earlier.id (List.mem_map_of_mem member) later.id
    (List.mem_map_of_mem member')

namespace Search

/-- What the visits under way have looked at is listed, cut, or being visited further in; `inner`
are the nodes of the visits further in than all of these. -/
def Seen (graph : Graph) (search : Search) (inner : List Node) : List Visit → Prop
  | [] => True
  | visit :: outer =>
    (∀ slot target, slot ∉ visit.slots → graph.feeder? visit.node slot = some target →
      search.order.isCut visit.node.id slot = false →
        target ∈ search.order.nodes ∨ target ∈ inner) ∧
    Seen graph search (visit.node :: inner) outer

/-- A search in the middle of its visits. -/
structure Underway (graph : Graph) (visits : List Visit) (search : Search) : Prop where
  first : ∀ node ∈ visits.map (·.node) ++ search.order.nodes, graph.find? node.id = some node
  entered : ∀ id, id ∈ search.entered ↔ id ∈ visits.map (·.node.id) ++ search.order.ids
  distinct : (visits.map (·.node.id) ++ search.order.ids).Nodup
  fed : ∀ before node after, search.order.nodes = before ++ node :: after →
    ∀ slot target, graph.feeder? node slot = some target →
      search.order.isCut node.id slot = false → target ∈ before
  seen : search.Seen graph [] visits

variable {graph : Graph} {search next : Search} {node target : Node} {slot : Nat}
  {slots : List Nat} {outer visits : List Visit} {inner more : List Node}

theorem hasEntered_iff (search : Search) (id : String) :
    search.hasEntered id = true ↔ id ∈ search.entered := by
  simp [hasEntered]

theorem hasListed_iff (search : Search) (id : String) :
    search.hasListed id = true ↔ ∃ node ∈ search.order.nodes, node.id = id := by
  simp [hasListed]

theorem hasListed_list (search : Search) (node : Node) (id : String) :
    (search.list node).hasListed id = (search.hasListed id || node.id == id) := by
  simp [Search.list, hasListed]

theorem isCut_cut (search : Search) (cut : Cut) (id : String) (slot : Nat) :
    (search.cut cut).order.isCut id slot =
      (search.order.isCut id slot || (cut.node == id && cut.slot == slot)) := by
  simp [Search.cut, Order.isCut]

/-- A list with a known last element, split anywhere: at the end or before it. -/
theorem split_concat {α : Type} {front before after : List α} {last node : α}
    (split : front ++ [last] = before ++ node :: after) :
    (before = front ∧ node = last) ∨ ∃ rest, front = before ++ node :: rest := by
  rcases List.eq_nil_or_concat after with rfl | ⟨rest, other, rfl⟩
  · rcases List.append_inj' split rfl with ⟨same, ends⟩
    exact .inl ⟨same.symm, (List.cons.inj ends).1.symm⟩
  · rw [List.concat_eq_append, ← List.cons_append, ← List.append_assoc] at split
    exact .inr ⟨rest, (List.append_inj' split rfl).1⟩

theorem Seen.mono (seen : search.Seen graph inner visits)
    (grown : ∀ node, node ∈ search.order.nodes ∨ node ∈ inner →
      node ∈ next.order.nodes ∨ node ∈ more)
    (kept : ∀ id slot, next.order.isCut id slot = false → search.order.isCut id slot = false) :
    next.Seen graph more visits := by
  induction visits generalizing inner more with
  | nil => trivial
  | cons visit outer ih =>
    refine ⟨?_, ih seen.2 ?_⟩
    · intro slot target done feeds uncut
      exact grown target (seen.1 slot target done feeds (kept _ _ uncut))
    · intro node member
      have := grown node
      simp only [List.mem_cons] at member ⊢
      tauto

namespace Underway

theorem start : Underway graph [] start where
  first := by simp [Search.start]
  entered := by simp [Search.start, Order.ids]
  distinct := by simp [Search.start, Order.ids]
  fed := by simp [Search.start]
  seen := trivial

/-- What was entered is being visited or listed. -/
theorem mem_of_entered (sound : Underway graph visits search)
    (first : graph.find? node.id = some node) (entered : node.id ∈ search.entered) :
    node ∈ visits.map (·.node) ++ search.order.nodes := by
  have ids : visits.map (·.node.id) ++ search.order.ids =
      (visits.map (·.node) ++ search.order.nodes).map (·.id) := by
    simp [Order.ids]
  rw [sound.entered, ids] at entered
  rcases List.mem_map.1 entered with ⟨other, member, same⟩
  have found := sound.first other member
  rw [same, first] at found
  cases found
  exact member

/-- A node whose slots are all looked at is listed. -/
theorem list (sound : Underway graph (⟨node, []⟩ :: outer) search) :
    Underway graph outer (search.list node) where
  first := by
    intro other member
    apply sound.first
    simp only [Search.list, List.map_cons, List.mem_append, List.mem_cons, List.not_mem_nil,
      or_false] at member ⊢
    tauto
  entered := by
    intro id
    rw [Search.list, sound.entered]
    simp only [Order.ids, List.map_cons, List.map_append, List.map_nil, List.mem_append,
      List.mem_cons, List.not_mem_nil, or_false]
    tauto
  distinct := by
    refine List.Perm.nodup_iff ?_ |>.1 sound.distinct
    simp only [Search.list, Order.ids, List.map_cons, List.map_append, List.map_nil]
    rw [← List.append_assoc]
    exact (List.perm_append_singleton _ _).symm
  fed := by
    intro before other after split slot target feeds uncut
    rcases split_concat split with ⟨rfl, rfl⟩ | ⟨rest, earlier⟩
    · have looked := sound.seen.1 slot target List.not_mem_nil feeds uncut
      simpa using looked
    · exact sound.fed before other rest earlier slot target feeds uncut
  seen := by
    refine sound.seen.2.mono ?_ fun _ _ uncut => uncut
    intro other member
    simp only [Search.list, List.mem_append, List.mem_singleton, List.not_mem_nil] at member ⊢
    tauto

/-- A slot is passed over when what feeds it, if anything, is listed or cut. -/
theorem advance (sound : Underway graph (⟨node, slot :: slots⟩ :: outer) search)
    (settled : ∀ target, graph.feeder? node slot = some target →
      search.order.isCut node.id slot = false → target ∈ search.order.nodes) :
    Underway graph (⟨node, slots⟩ :: outer) search where
  first := sound.first
  entered := sound.entered
  distinct := sound.distinct
  fed := sound.fed
  seen := by
    refine ⟨?_, sound.seen.2⟩
    intro other target done feeds uncut
    by_cases current : other = slot
    · subst current
      exact .inl (settled target feeds uncut)
    · exact sound.seen.1 other target (by simp_all) feeds uncut

/-- One more cut only lessens what is asked of the other wires. -/
theorem cut (sound : Underway graph visits search) (cut : Cut) :
    Underway graph visits (search.cut cut) where
  first := sound.first
  entered := sound.entered
  distinct := sound.distinct
  fed := by
    intro before node after split slot target feeds uncut
    rw [isCut_cut, Bool.or_eq_false_iff] at uncut
    exact sound.fed before node after split slot target feeds uncut.1
  seen := by
    refine sound.seen.mono (fun _ member => member) ?_
    intro id slot uncut
    rw [isCut_cut, Bool.or_eq_false_iff] at uncut
    exact uncut.1

/-- A visit of a node never entered before begins, further in than all others. -/
theorem enter (sound : Underway graph visits search) (first : graph.find? node.id = some node)
    (new : node.id ∉ search.entered) :
    Underway graph (⟨node, node.slots⟩ :: visits) (search.enter node) where
  first := by
    intro other member
    rcases List.mem_cons.1 member with rfl | member
    · exact first
    · exact sound.first other member
  entered := by
    intro id
    simp only [Search.enter, List.mem_cons, sound.entered, List.map_cons, List.cons_append]
  distinct := by
    refine List.nodup_cons.2 ⟨?_, sound.distinct⟩
    rw [sound.entered] at new
    exact new
  fed := sound.fed
  seen := by
    refine ⟨?_, sound.seen.mono (fun _ member => member.imp_right (by simp)) fun _ _ uncut => uncut⟩
    intro slot target done feeds
    rcases Option.bind_eq_some_iff.1 feeds with ⟨id, wired, -⟩
    exact absurd (Node.mem_slots wired) done

/-- The slot through which a visit began counts as looked at: its feeder is being visited. -/
theorem advance_outer
    (sound : Underway graph (⟨target, target.slots⟩ :: ⟨node, slot :: slots⟩ :: outer) search)
    (feeds : graph.feeder? node slot = some target) :
    Underway graph (⟨target, target.slots⟩ :: ⟨node, slots⟩ :: outer) search where
  first := sound.first
  entered := sound.entered
  distinct := sound.distinct
  fed := sound.fed
  seen := by
    refine ⟨sound.seen.1, ?_, sound.seen.2.2⟩
    intro other found done feeds' uncut
    by_cases current : other = slot
    · subst current
      rw [feeds] at feeds'
      cases feeds'
      simp
    · exact sound.seen.2.1 other found (by simp_all) feeds' uncut

end Underway

end Search

namespace Graph

open Search

variable {graph : Graph} {search : Search}

theorem feeder?_first {node target : Node} {slot : Nat}
    (feeds : graph.feeder? node slot = some target) : graph.find? target.id = some target := by
  rcases Option.bind_eq_some_iff.1 feeds with ⟨id, _, found⟩
  rw [find?_id found]
  exact found

theorem feeder?_id_ne {node target : Node} {slot : Nat}
    (feeds : graph.feeder? node slot = some target) : target.id ≠ node.id := by
  rcases Option.bind_eq_some_iff.1 feeds with ⟨id, wired, found⟩
  rw [find?_id found]
  exact (input?_eq_some_iff.1 wired).2.2

/-- All that the visits under way can do next: list the innermost node when its slots are done, pass
over a slot that nothing or a listed node feeds, cut a wire from a node that is being visited, or
visit the node that feeds the slot. -/
inductive Step (graph : Graph) : List Visit → Search → List Visit → Search → Prop where
  | list {node : Node} {outer : List Visit} {search : Search} :
      Step graph (⟨node, []⟩ :: outer) search outer (search.list node)
  | unfed {node : Node} {slot : Nat} {slots : List Nat} {outer : List Visit} {search : Search}
      (unfed : graph.feeder? node slot = none) :
      Step graph (⟨node, slot :: slots⟩ :: outer) search (⟨node, slots⟩ :: outer) search
  | known {node target : Node} {slot : Nat} {slots : List Nat} {outer : List Visit}
      {search : Search} (feeds : graph.feeder? node slot = some target)
      (listed : search.hasListed target.id = true) :
      Step graph (⟨node, slot :: slots⟩ :: outer) search (⟨node, slots⟩ :: outer) search
  | cut {node target : Node} {slot : Nat} {slots : List Nat} {outer : List Visit}
      {search : Search} (feeds : graph.feeder? node slot = some target)
      (entered : search.hasEntered target.id = true)
      (unlisted : ¬ search.hasListed target.id = true) :
      Step graph (⟨node, slot :: slots⟩ :: outer) search (⟨node, slots⟩ :: outer)
        (search.cut ⟨node.id, slot, target.id⟩)
  | enter {node target : Node} {slot : Nat} {slots : List Nat} {outer : List Visit}
      {search : Search} (feeds : graph.feeder? node slot = some target)
      (new : ¬ search.hasEntered target.id = true) :
      Step graph (⟨node, slot :: slots⟩ :: outer) search
        (⟨target, target.slots⟩ :: ⟨node, slots⟩ :: outer) (search.enter target)

/-- What every step keeps holds when the visits are finished. -/
theorem finish_keeps {I : List Visit → Search → Prop}
    (step : ∀ {visits search visits' search'}, graph.Step visits search visits' search' →
      I visits search → I visits' search')
    (visits : List Visit) (search : Search) (holds : I visits search) :
    I [] (graph.finish visits search) := by
  fun_induction finish graph visits search with
  | case1 => exact holds
  | case2 _ _ _ ih => exact ih (step .list holds)
  | case3 _ _ _ _ _ unfed ih => exact ih (step (.unfed unfed) holds)
  | case4 _ _ _ _ _ _ feeds _ listed ih => exact ih (step (.known feeds listed) holds)
  | case5 _ _ _ _ _ _ feeds entered unlisted ih =>
    exact ih (step (.cut feeds entered unlisted) holds)
  | case6 _ _ _ _ _ _ feeds new ih => exact ih (step (.enter feeds new) holds)

theorem Step.underway {visits visits' : List Visit} {search search' : Search}
    (step : graph.Step visits search visits' search') (sound : Underway graph visits search) :
    Underway graph visits' search' := by
  cases step with
  | list => exact sound.list
  | unfed unfed => exact sound.advance (by simp [unfed])
  | known feeds listed =>
    refine sound.advance ?_
    intro other feeds' _
    rw [feeds] at feeds'
    cases feeds'
    rcases (hasListed_iff search _).1 listed with ⟨known, member, same⟩
    have first := sound.first known (List.mem_append_right _ member)
    rw [same, feeder?_first feeds] at first
    cases first
    exact member
  | cut feeds =>
    refine (sound.cut _).advance ?_
    intro other _ uncut
    simp [isCut_cut] at uncut
  | enter feeds new =>
    rw [hasEntered_iff] at new
    exact (sound.enter (feeder?_first feeds) new).advance_outer feeds

theorem finish_underway (visits : List Visit) (search : Search)
    (sound : Underway graph visits search) : Underway graph [] (graph.finish visits search) :=
  finish_keeps Step.underway visits search sound

theorem entered_finish (visits : List Visit) (search : Search) {id : String}
    (known : id ∈ search.entered) : id ∈ (graph.finish visits search).entered := by
  refine finish_keeps (I := fun _ search => id ∈ search.entered) ?_ visits search known
  intro visits search visits' search' step known
  cases step with
  | enter => exact List.mem_cons_of_mem _ known
  | list | unfed | known | cut => exact known

theorem entered_visit (search : Search) (node : Node) {id : String}
    (known : id ∈ search.entered ∨ id = node.id) : id ∈ (graph.visit search node).entered := by
  unfold visit
  split
  · next entered =>
    rw [hasEntered_iff] at entered
    rcases known with known | rfl
    · exact known
    · exact entered
  · apply entered_finish _ _
    simp only [Search.enter, List.mem_cons]
    tauto

theorem visit_underway (search : Search) (node : Node) (sound : Underway graph [] search)
    (first : node.id ∉ search.entered → graph.find? node.id = some node) :
    Underway graph [] (graph.visit search node) := by
  unfold visit
  split
  · exact sound
  · next new =>
    rw [hasEntered_iff] at new
    exact finish_underway _ _ (sound.enter (first new) new)

/-- A node with none of its id before it is the one that its id stands for. -/
theorem find?_of_split {before after : List Node} {node : Node}
    (split : graph.nodes = before ++ node :: after)
    (others : ∀ other ∈ before, other.id ≠ node.id) : graph.find? node.id = some node := by
  have nothing : before.find? (·.id == node.id) = none := by
    rw [List.find?_eq_none]
    intro other member same
    exact others other member (beq_iff_eq.1 same)
  simp [find?, split, nothing]

/-- Where ids are distinct, that is every node. -/
theorem find?_of_distinct {node : Node} (distinct : (graph.nodes.map (·.id)).Nodup)
    (member : node ∈ graph.nodes) : graph.find? node.id = some node := by
  rcases List.append_of_mem member with ⟨before, after, split⟩
  rw [split, List.map_append, List.map_cons, List.nodup_append] at distinct
  apply find?_of_split split
  intro other earlier
  exact distinct.2.2 other.id (List.mem_map_of_mem earlier) node.id List.mem_cons_self

/-- Among nodes with distinct ids, one is found alone by its id. -/
theorem filter_id_eq {nodes : List Node} {node : Node} (distinct : (nodes.map (·.id)).Nodup)
    (member : node ∈ nodes) : nodes.filter (·.id == node.id) = [node] := by
  induction nodes with
  | nil => cases member
  | cons head rest ih =>
    rw [List.map_cons, List.nodup_cons, List.mem_map, not_exists] at distinct
    rcases distinct with ⟨new, distinct⟩
    rw [List.filter_cons]
    rcases List.mem_cons.1 member with rfl | member
    · have none_left : rest.filter (·.id == node.id) = [] := by
        rw [List.filter_eq_nil_iff]
        exact fun other inside same => new other ⟨inside, beq_iff_eq.1 same⟩
      rw [if_pos (beq_self_eq_true _), none_left]
    · have other : ¬ (head.id == node.id) = true := fun same =>
        new node ⟨member, (beq_iff_eq.1 same).symm⟩
      rw [if_neg other, ih distinct member]

/-- Roots are visited in the order of the graph, so a root that is new is the first of its id. -/
theorem find?_of_new {before after : List Node} {node : Node}
    (split : graph.nodes = before ++ node :: after)
    (known : ∀ node ∈ before, node.id ∈ search.entered) (new : node.id ∉ search.entered) :
    graph.find? node.id = some node :=
  find?_of_split split fun other member same => new (same ▸ known other member)

/-- All roots so far are entered when one more was visited. -/
theorem known_visit {before : List Node} (known : ∀ node ∈ before, node.id ∈ search.entered)
    (node : Node) : ∀ other ∈ before ++ [node], other.id ∈ (graph.visit search node).entered := by
  intro other member
  rcases List.mem_append.1 member with member | member
  · exact entered_visit search node (.inl (known other member))
  · exact entered_visit search node (.inr (by rw [List.mem_singleton.1 member]))

/-- What visits of roots keep holds after all of them, and then all roots are entered. -/
theorem visits_keep {I : Search → Prop} (before roots after : List Node) (search : Search)
    (split : graph.nodes = before ++ roots ++ after)
    (known : ∀ node ∈ before, node.id ∈ search.entered) (holds : I search)
    (step : ∀ node ∈ roots, ∀ search, I search →
      (node.id ∉ search.entered → graph.find? node.id = some node) → I (graph.visit search node)) :
    I (roots.foldl graph.visit search) ∧
      ∀ node ∈ before ++ roots, node.id ∈ (roots.foldl graph.visit search).entered := by
  induction roots generalizing before search with
  | nil => exact ⟨holds, by simpa using known⟩
  | cons node roots ih =>
    have split' : graph.nodes = before ++ node :: (roots ++ after) := by simp [split]
    have first := find?_of_new split' known
    have rest := ih (before ++ [node]) (graph.visit search node) (by simp [split])
      (known_visit known node) (step node List.mem_cons_self search holds first)
      fun other member => step other (List.mem_cons_of_mem _ member)
    simpa using rest

theorem order_underway (graph : Graph) :
    Underway graph [] (graph.nodes.foldl graph.visit .start) :=
  (visits_keep [] graph.nodes [] .start (by simp) (by simp) .start
    fun node _ search sound first => visit_underway search node sound first).1

theorem order_sound (graph : Graph) : graph.order.Sound graph where
  first := graph.order_underway.first
  distinct := graph.order_underway.distinct
  fed := graph.order_underway.fed

end Graph

/-- Leaving out whole nodes keeps an order sound when what stays is closed under feeding. -/
theorem Order.Sound.restrict {graph : Graph} {order : Order} {ids : List String}
    (sound : order.Sound graph)
    (closed : ∀ node ∈ order.nodes, node.id ∈ ids → ∀ slot target,
      graph.feeder? node slot = some target → target.id ∈ ids) :
    (order.restrict ids).Sound graph where
  first := fun node member => sound.first node (List.mem_filter.1 member).1
  distinct := by
    rw [Order.ids_restrict]
    exact sound.distinct.filter _
  fed := by
    intro before node after split slot target feeds uncut
    rcases List.filter_eq_append_iff.1 split with ⟨front, back, whole, rfl, rest⟩
    rcases List.filter_eq_cons_iff.1 rest with ⟨skipped, others, rfl, out, kept, -⟩
    have split' : order.nodes = (front ++ skipped) ++ node :: others := by
      rw [whole, List.append_assoc]
    have member : node ∈ order.nodes := by simp [split']
    have kept : node.id ∈ ids := by simpa using kept
    rw [Order.isCut_restrict, Bool.and_eq_false_iff] at uncut
    have earlier := sound.fed _ node others split' slot target feeds (by simpa [kept] using uncut)
    have inside := closed node member kept slot target feeds
    rcases List.mem_append.1 earlier with earlier | earlier
    · exact List.mem_filter.2 ⟨earlier, by simpa using inside⟩
    · exact absurd (by simpa using inside) (out target earlier)

end NodeShader
