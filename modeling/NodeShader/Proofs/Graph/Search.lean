import NodeShader.Proofs.Graph.Closure

/-!
The steps of a search, and what it enters: the nodes that its roots need, and no others. So every
node is listed in the order, the first of its id in the place of all of them.
-/

namespace NodeShader

namespace Graph

open Search

variable {graph : Graph} {search : Search} {ids : List String} {id : String}

section

variable {node target : Node} {slot : Nat} {slots : List Nat} {outer : List Visit}

theorem finish_nil : graph.finish [] search = search := by
  rw [finish]

theorem finish_list : graph.finish (⟨node, []⟩ :: outer) search =
    graph.finish outer (search.list node) := by
  rw [finish]

theorem finish_unfed (unfed : graph.feeder? node slot = none) :
    graph.finish (⟨node, slot :: slots⟩ :: outer) search =
      graph.finish (⟨node, slots⟩ :: outer) search := by
  rw [finish]
  split
  · rfl
  · next found =>
    rw [unfed] at found
    cases found

theorem finish_fed (feeds : graph.feeder? node slot = some target) :
    graph.finish (⟨node, slot :: slots⟩ :: outer) search =
      if search.hasEntered target.id then
        if search.hasListed target.id then graph.finish (⟨node, slots⟩ :: outer) search
        else graph.finish (⟨node, slots⟩ :: outer) (search.cut ⟨node.id, slot, target.id⟩)
      else graph.finish (⟨target, target.slots⟩ :: ⟨node, slots⟩ :: outer) (search.enter target) := by
  rw [finish]
  split
  · next missing =>
    rw [feeds] at missing
    cases missing
  · next other found =>
    rw [feeds] at found
    cases found
    rfl

end

/-- Ids that hold with a node the nodes that feed it. -/
def IsClosed (graph : Graph) (ids : List String) : Prop :=
  ∀ node slot target, graph.find? node.id = some node → node.id ∈ ids →
    graph.feeder? node slot = some target → target.id ∈ ids

theorem closure_isClosed (graph : Graph) (id : String) : graph.IsClosed (graph.closure id) :=
  fun _ _ _ first member feeds => closure_closed id first member feeds

theorem IsClosed.flatMap {α : Type} {items : List α} {part : α → List String}
    (closed : ∀ item ∈ items, graph.IsClosed (part item)) : graph.IsClosed (items.flatMap part) := by
  intro node slot target first member feeds
  rcases List.mem_flatMap.1 member with ⟨item, given, inside⟩
  exact List.mem_flatMap.2 ⟨item, given, closed item given node slot target first inside feeds⟩

theorem reach_visited (visited pending : List String) : visited ⊆ graph.reach visited pending := by
  fun_induction reach graph visited pending with
  | case1 => exact List.Subset.refl _
  | case2 _ _ _ _ ih => exact ih
  | case3 _ _ _ _ _ ih => exact ih
  | case4 _ _ _ _ _ _ ih => exact fun _ known => ih (List.mem_cons_of_mem _ known)

/-- The closure is the least: it lies within all closed ids that hold what is pending. -/
theorem reach_subset (closed : graph.IsClosed ids) (visited pending : List String)
    (known : visited ⊆ ids)
    (wanted : ∀ id ∈ pending, (graph.find? id).isSome → id ∈ ids) :
    graph.reach visited pending ⊆ ids := by
  fun_induction reach graph visited pending with
  | case1 => exact known
  | case2 visited id pending _ ih =>
    exact ih known fun other member => wanted other (List.mem_cons_of_mem _ member)
  | case3 visited id pending _ _ ih =>
    exact ih known fun other member => wanted other (List.mem_cons_of_mem _ member)
  | case4 visited id pending _ node found ih =>
    have inside : node.id ∈ ids := by
      rw [find?_id found]
      exact wanted id List.mem_cons_self (by rw [found]; rfl)
    apply ih (List.cons_subset.2 ⟨inside, known⟩)
    intro other member resolves
    rcases List.mem_append.1 member with member | member
    · rcases List.mem_filterMap.1 member with ⟨slot, _, wired⟩
      rcases Option.isSome_iff_exists.1 resolves with ⟨target, found'⟩
      have first : graph.find? node.id = some node := by rw [find?_id found, found]
      have feeds : graph.feeder? node slot = some target := by
        rw [feeder?, wired]
        exact found'
      rw [← find?_id found']
      exact closed node slot target first inside feeds
    · exact wanted other (List.mem_cons_of_mem _ member) resolves

theorem closure_subset (closed : graph.IsClosed ids) (start : (graph.find? id).isSome → id ∈ ids) :
    graph.closure id ⊆ ids :=
  reach_subset closed [] [id] (List.nil_subset _) (by simpa using start)

theorem mem_closure_self (resolves : (graph.find? id).isSome) : id ∈ graph.closure id := by
  rcases Option.isSome_iff_exists.1 resolves with ⟨node, found⟩
  rw [closure, reach, dif_neg (by simp)]
  split
  · next missing =>
    rw [found] at missing
    cases missing
  · next other found' =>
    apply reach_visited
    rw [find?_id found']
    exact List.mem_cons_self

/-- Only nodes of the graph are needed. -/
theorem find?_of_mem_closure {start : String} (member : id ∈ graph.closure start) :
    (graph.find? id).isSome := by
  let present := graph.nodes.map (·.id)
  have resolves (other : String) : other ∈ present ↔ (graph.find? other).isSome := by
    simp only [present, List.mem_map, find?, List.find?_isSome, beq_iff_eq]
  have closed : graph.IsClosed present := fun node slot target _ _ feeds =>
    List.mem_map_of_mem (feeder?_mem feeds)
  exact (resolves id).1 (closure_subset closed (resolves start).2 member)

/-- What feeds the nodes seen so far was entered as well. -/
structure Explored (graph : Graph) (visits : List Visit) (search : Search) : Prop where
  listed : ∀ node ∈ search.order.nodes, ∀ slot target, graph.feeder? node slot = some target →
    target.id ∈ search.entered
  looked : ∀ visit ∈ visits, ∀ slot target, slot ∉ visit.slots →
    graph.feeder? visit.node slot = some target → target.id ∈ search.entered

section

variable {node target : Node} {slot : Nat} {slots : List Nat} {outer : List Visit}

theorem Explored.start : graph.Explored [] .start := ⟨by simp [Search.start], by simp⟩

/-- A slot is passed over when what feeds it was entered. -/
theorem Explored.advance (explored : graph.Explored (⟨node, slot :: slots⟩ :: outer) search)
    (settled : ∀ target, graph.feeder? node slot = some target → target.id ∈ search.entered) :
    graph.Explored (⟨node, slots⟩ :: outer) search := by
  refine ⟨explored.listed, fun visit member other target done feeds => ?_⟩
  rcases List.mem_cons.1 member with rfl | member
  · by_cases current : other = slot
    · exact settled target (current ▸ feeds)
    · exact explored.looked _ List.mem_cons_self other target (by simp_all) feeds
  · exact explored.looked visit (List.mem_cons_of_mem _ member) other target done feeds

theorem Explored.enter {visits : List Visit} (explored : graph.Explored visits search)
    (node : Node) : graph.Explored visits (search.enter node) where
  listed other member slot target feeds :=
    List.mem_cons_of_mem _ (explored.listed other member slot target feeds)
  looked visit member slot target done feeds :=
    List.mem_cons_of_mem _ (explored.looked visit member slot target done feeds)

/-- A visit that begins has looked at nothing. -/
theorem Explored.begin {visits : List Visit} (explored : graph.Explored visits search)
    (node : Node) : graph.Explored (⟨node, node.slots⟩ :: visits) search := by
  refine ⟨explored.listed, fun visit member slot target done feeds => ?_⟩
  rcases List.mem_cons.1 member with rfl | member
  · rcases Option.bind_eq_some_iff.1 feeds with ⟨named, wired, -⟩
    exact absurd (Node.mem_slots wired) done
  · exact explored.looked visit member slot target done feeds

theorem Step.explored {visits visits' : List Visit} {search search' : Search}
    (step : graph.Step visits search visits' search') (sound : Underway graph visits search)
    (explored : graph.Explored visits search) : graph.Explored visits' search' := by
  cases step with
  | @list node outer =>
    refine ⟨fun other member slot target feeds => ?_, fun visit member =>
      explored.looked visit (List.mem_cons_of_mem _ member)⟩
    rcases List.mem_append.1 member with member | member
    · exact explored.listed other member slot target feeds
    · rw [List.mem_singleton.1 member] at feeds
      exact explored.looked _ List.mem_cons_self slot target List.not_mem_nil feeds
  | unfed unfed => exact explored.advance (by simp [unfed])
  | known feeds listed =>
    refine explored.advance fun other feeds' => ?_
    rw [feeds] at feeds'
    cases feeds'
    rcases (hasListed_iff search _).1 listed with ⟨known, member, same⟩
    rw [sound.entered, ← same]
    exact List.mem_append_right _ (List.mem_map_of_mem member)
  | @cut node target slot slots outer _ feeds entered =>
    have cut : graph.Explored (⟨node, slot :: slots⟩ :: outer)
        (search.cut ⟨node.id, slot, target.id⟩) := ⟨explored.listed, explored.looked⟩
    refine cut.advance fun other feeds' => ?_
    rw [feeds] at feeds'
    cases feeds'
    exact (hasEntered_iff search target.id).1 entered
  | @enter node target slot slots outer _ feeds =>
    refine ((explored.enter target).advance fun other feeds' => ?_).begin target
    rw [feeds] at feeds'
    cases feeds'
    exact List.mem_cons_self

end

/-- A search whose visits stay within closed ids enters no others. -/
theorem finish_within (closed : graph.IsClosed ids) (visits : List Visit) (search : Search)
    (inside : ∀ visit ∈ visits, graph.find? visit.node.id = some visit.node ∧ visit.node.id ∈ ids)
    (entered : search.entered ⊆ ids) : (graph.finish visits search).entered ⊆ ids := by
  refine (finish_keeps (I := fun visits search => (∀ visit ∈ visits,
    graph.find? visit.node.id = some visit.node ∧ visit.node.id ∈ ids) ∧ search.entered ⊆ ids)
    ?_ visits search ⟨inside, entered⟩).2
  intro visits search visits' search' step both
  rcases both with ⟨inside, entered⟩
  cases step with
  | list => exact ⟨fun visit member => inside visit (List.mem_cons_of_mem _ member), entered⟩
  | unfed | known | cut => exact ⟨by simpa using inside, entered⟩
  | enter feeds =>
    simp only [List.mem_cons, forall_eq_or_imp] at inside
    have fed := closed _ _ _ inside.1.1 inside.1.2 feeds
    exact ⟨by simpa using ⟨⟨feeder?_first feeds, fed⟩, inside⟩, List.cons_subset.2 ⟨fed, entered⟩⟩

section

variable {before after : List Node}

/-- What a search from some first nodes of the graph keeps. -/
theorem prefix_keeps {I : Search → Prop} (split : graph.nodes = before ++ after) (holds : I .start)
    (step : ∀ node ∈ before, ∀ search, I search →
      (node.id ∉ search.entered → graph.find? node.id = some node) → I (graph.visit search node)) :
    I (before.foldl graph.visit .start) :=
  (visits_keep [] before after .start split (by simp) holds step).1

/-- What holds at the start, when the visit of a root begins, and after each step that keeps it, holds
of a search from some first nodes of the graph. -/
theorem search_keeps {I : List Visit → Search → Prop} (split : graph.nodes = before ++ after)
    (holds : I [] .start)
    (begin : ∀ node search, I [] search → graph.find? node.id = some node →
      node.id ∉ search.entered → I [⟨node, node.slots⟩] (search.enter node))
    (step : ∀ {visits search visits' search'}, graph.Step visits search visits' search' →
      I visits search → I visits' search') :
    I [] (before.foldl graph.visit .start) := by
  refine prefix_keeps (I := I []) split holds fun node _ search holds first => ?_
  unfold visit
  split
  · exact holds
  · next new =>
    rw [hasEntered_iff] at new
    exact finish_keeps step _ _ (begin node search holds (first new) new)

theorem prefix_known (split : graph.nodes = before ++ after) :
    ∀ root ∈ before, root.id ∈ (before.foldl graph.visit .start).entered :=
  (visits_keep (I := fun _ => True) [] before after .start split (by simp) trivial
    fun _ _ _ _ _ => trivial).2

theorem prefix_underway (split : graph.nodes = before ++ after) :
    Underway graph [] (before.foldl graph.visit .start) :=
  search_keeps split .start (fun _ _ sound first new => sound.enter first new) Step.underway

theorem prefix_explored (split : graph.nodes = before ++ after) :
    graph.Explored [] (before.foldl graph.visit .start) := by
  refine (search_keeps (I := fun visits search => Underway graph visits search ∧
    graph.Explored visits search) split ⟨.start, .start⟩ ?_ ?_).2
  · intro node search both first new
    exact ⟨both.1.enter first new, (both.2.enter node).begin node⟩
  · intro visits search visits' search' step both
    exact ⟨step.underway both.1, step.explored both.1 both.2⟩

/-- A search from some first nodes of the graph enters just what these nodes need. -/
theorem mem_entered_iff (split : graph.nodes = before ++ after) :
    id ∈ (before.foldl graph.visit .start).entered ↔ ∃ root ∈ before, id ∈ graph.closure root.id := by
  let ends := before.foldl graph.visit .start
  constructor
  · intro entered
    have closed : graph.IsClosed (before.flatMap fun root => graph.closure root.id) :=
      .flatMap fun root _ => graph.closure_isClosed root.id
    have within : ends.entered ⊆ before.flatMap fun root => graph.closure root.id := by
      refine prefix_keeps (I := fun search => search.entered ⊆ _) split (List.nil_subset _) ?_
      intro root member search inside first
      unfold visit
      split
      · exact inside
      · next new =>
        rw [hasEntered_iff] at new
        have resolves := first new
        have start : root.id ∈ before.flatMap fun root => graph.closure root.id :=
          List.mem_flatMap.2 ⟨root, member, mem_closure_self (by rw [resolves]; rfl)⟩
        refine finish_within closed _ _ ?_ (List.cons_subset.2 ⟨start, inside⟩)
        exact List.forall_mem_singleton.2 ⟨resolves, start⟩
    exact List.mem_flatMap.1 (within entered)
  · intro needed
    rcases needed with ⟨root, member, needed⟩
    have sound : Underway graph [] ends := prefix_underway split
    have explored : graph.Explored [] ends := prefix_explored split
    have closed : graph.IsClosed ends.entered := by
      intro node slot target first entered feeds
      exact explored.listed node (sound.mem_of_entered first entered) slot target feeds
    exact closure_subset closed (fun _ => prefix_known split root member) needed

end

/-- Every node that its id stands for is listed. -/
theorem order_complete {node : Node} (found : graph.find? id = some node) :
    node ∈ graph.order.nodes := by
  have sound := graph.order_underway
  have needed : id ∈ graph.closure node.id := by
    rw [find?_id found]
    exact mem_closure_self (by rw [found]; rfl)
  have entered : id ∈ (graph.nodes.foldl graph.visit .start).entered :=
    (mem_entered_iff (List.append_nil _).symm).2 ⟨node, find?_mem found, needed⟩
  rw [← find?_id found] at entered found
  exact sound.mem_of_entered found entered

end Graph

end NodeShader
