import Mathlib.Data.List.Induction
import NodeShader.Proofs.Compile.Draft
import NodeShader.Proofs.Compile.Meaning

/-!
The values of the nodes of a graph, by recursion along their dependency order.
-/

namespace NodeShader

theorem NodeKind.outputType?_isSome {kind : NodeKind} (value : kind.isOutput = false) :
    ∃ type, kind.outputType? = some type := by
  cases kind with
  | outputFinal => cases value
  | _ => exact ⟨_, rfl⟩

theorem NodeKind.outputType?_narrow {kind : NodeKind} {type : ValueType}
    (value : kind.outputType? = some type) : type ≠ .vec4f := by
  intro same
  subst same
  revert value
  cases kind <;> decide

namespace Graph

variable {V : Type} (domain : Domain V) (graph : Graph) (order : Order)

/-- What stands in the slots of a node: the types of its sources and the values they have so far. -/
def slotValues (values : String → Option V) (node : Node) : SlotValues V := fun slot => do
  let source ← graph.source? order node slot
  return (← source.kind.outputType?, values source.id)

/-- Adds the value of a node to the values before it. -/
def evaluate (values : String → Option V) (node : Node) : Option (String → Option V) := do
  let value ← node.meaning? domain (graph.slotValues order values node)
  return fun id => if id = node.id then some value else values id

/-- The values of the nodes of an order, each computed from those before it. -/
def values? : Option (String → Option V) :=
  order.nodes.foldlM (graph.evaluate domain order) fun _ => none

variable {domain graph order} {node : Node} {values : String → Option V}

theorem slotValues_eq_some_iff {slot : Nat} {type : ValueType} {value : Option V} :
    graph.slotValues order values node slot = some (type, value) ↔
      ∃ source, graph.source? order node slot = some source ∧
        source.kind.outputType? = some type ∧ values source.id = value := by
  simp [slotValues, Option.bind_eq_some_iff]

theorem slotValues_eq_none_iff {slot : Nat} :
    graph.slotValues order values node slot = none ↔ graph.source? order node slot = none := by
  unfold slotValues
  cases source : graph.source? order node slot with
  | none => simp
  | some target =>
    rcases source?_eq_some_iff.1 source with ⟨-, -, proper⟩
    rcases NodeKind.outputType?_isSome proper with ⟨type, known⟩
    simp [known]

/-- The nodes after a prefix leave alone the values of other ids. -/
theorem evaluate_other {nodes : List Node} {start : String → Option V}
    (evaluated : nodes.foldlM (graph.evaluate domain order) start = some values) {id : String}
    (other : ∀ node ∈ nodes, node.id ≠ id) : values id = start id := by
  induction nodes generalizing start with
  | nil =>
    cases evaluated
    rfl
  | cons node nodes ih =>
    rw [List.foldlM_cons] at evaluated
    rcases Option.bind_eq_some_iff.1 evaluated with ⟨next, first, rest⟩
    rcases Option.bind_eq_some_iff.1 first with ⟨value, -, same⟩
    cases same
    calc
      values id = if id = node.id then some value else start id :=
        ih rest fun node member => other node (List.mem_cons_of_mem _ member)
      _ = start id := if_neg (Ne.symm (other node List.mem_cons_self))

/-- Each value is what its node means when all values are known: its sources stand before it, and
no later node has the id of one of them. -/
theorem meaning?_of_values? (sound : order.Sound graph)
    (evaluated : graph.values? domain order = some values) (member : node ∈ order.nodes) :
    ∃ value, values node.id = some value ∧
      node.meaning? domain (graph.slotValues order values node) = some value := by
  rcases List.append_of_mem member with ⟨before, after, split⟩
  unfold values? at evaluated
  rw [split, List.foldlM_append] at evaluated
  rcases Option.bind_eq_some_iff.1 evaluated with ⟨earlier, -, evaluated⟩
  have kept {id : String} (other : ∀ later ∈ node :: after, later.id ≠ id) :
      values id = earlier id := evaluate_other evaluated other
  rw [List.foldlM_cons] at evaluated
  rcases Option.bind_eq_some_iff.1 evaluated with ⟨next, first, rest⟩
  rcases Option.bind_eq_some_iff.1 first with ⟨value, meaning, same⟩
  cases same
  have split' : order.nodes = (before ++ [node]) ++ after := by simp [split]
  have own : values node.id = some value := by
    calc
      values node.id = if node.id = node.id then some value else earlier node.id :=
        evaluate_other rest fun later member => (sound.other_id split' (by simp) member).symm
      _ = some value := if_pos rfl
  have slots : graph.slotValues order values node = graph.slotValues order earlier node := by
    funext slot
    unfold slotValues
    cases source : graph.source? order node slot with
    | none => rfl
    | some target =>
      rcases source?_eq_some_iff.1 source with ⟨uncut, feeds, -⟩
      have member := sound.fed before node after split slot target feeds uncut
      simp only [Option.bind_eq_bind, Option.bind_some,
        kept fun later member' => (sound.other_id split member member').symm]
  exact ⟨value, own, by rw [slots, meaning]⟩

/-- All nodes have values with a property if each node has one when its sources have. -/
theorem values?_of_each (sound : order.Sound graph) (P : Node → V → Prop)
    (each : ∀ node slots, (∀ slot type value, slots slot = some (type, value) →
      ∃ source result, source.kind.outputType? = some type ∧ value = some result ∧
        P source result) → ∃ result, node.meaning? domain slots = some result ∧ P node result) :
    ∃ values, graph.values? domain order = some values ∧
      ∀ node ∈ order.nodes, ∃ result, values node.id = some result ∧ P node result := by
  suffices prefixes : ∀ before after, order.nodes = before ++ after →
      ∃ values, before.foldlM (graph.evaluate domain order) (fun _ => none) = some values ∧
        ∀ node ∈ before, ∃ result, values node.id = some result ∧ P node result from
    prefixes order.nodes [] (List.append_nil _).symm
  intro before
  induction before using List.reverseRecOn with
  | nil => exact fun _ _ => ⟨_, rfl, by simp⟩
  | append_singleton before node ih =>
    intro after split
    have split' : order.nodes = before ++ node :: after := by simp [split]
    rcases ih (node :: after) split' with ⟨values, evaluated, known⟩
    obtain ⟨result, meaning, holds⟩ := each node (graph.slotValues order values node) (by
      intro slot type value here
      rcases slotValues_eq_some_iff.1 here with ⟨source, reads, type, rfl⟩
      rcases source?_eq_some_iff.1 reads with ⟨uncut, feeds, -⟩
      obtain ⟨result, value, holds⟩ :=
        known source (sound.fed before node after split' slot source feeds uncut)
      exact ⟨source, result, type, value, holds⟩)
    refine ⟨fun id => if id = node.id then some result else values id, ?_, fun other member => ?_⟩
    · rw [List.foldlM_append, evaluated]
      change ([node].foldlM (graph.evaluate domain order) values) = _
      rw [List.foldlM_cons, evaluate, meaning]
      rfl
    · rcases List.mem_append.1 member with member | member
      · rcases known other member with ⟨value, known, holds⟩
        have different := sound.other_id split' member List.mem_cons_self
        exact ⟨value, (if_neg different).trans known, holds⟩
      · rw [List.mem_singleton.1 member]
        exact ⟨result, if_pos rfl, holds⟩

end Graph

end NodeShader
