import NodeShader.Proofs.Compile.LastStatement

/-!
The arrangement of a graph. Where the nodes that the output needs are on no cycle and give identifiers
of their own, their places in the graph decide the order of the statements and nothing else, and the
other nodes decide nothing.
-/

namespace NodeShader

namespace Draft

variable {graph : Graph} {options : Options} {output : Node} {draft : Draft}

/-- With strict identifiers, every value has the bare one. -/
theorem given?_of_strict (strict : options.strictIdentifiers = true)
    (drafted : graph.drafts options output = .ok draft) {id identifier : String}
    (given : draft.identifiers.given? id = some identifier) : identifier = Identifiers.base id := by
  let I (before : List Node) (draft : Draft) : Prop := Knows before draft ∧
    ∀ id identifier, draft.identifiers.given? id = some identifier → identifier = Identifiers.base id
  have sound := graph.orderFor_sound output
  have finish : I (graph.orderFor output).nodes draft := by
    refine Graph.drafts_invariant I ?_ ⟨.empty, nofun⟩ drafted
    intro before node after draft next split both added
    rcases both with ⟨knows, bare⟩
    have new := knows.new (new_id sound split)
    refine ⟨knows.add (new_id sound split) added, fun id identifier given => ?_⟩
    cases added with
    | skip => exact bare id identifier given
    | color => exact bare id identifier given
    | value proper compiled type allocated =>
      rcases Identifiers.allocate_new new allocated with ⟨-, rfl, -, base⟩
      rw [declared, Identifiers.given?_give] at given
      split at given
      · next here =>
        cases given
        rw [here, base strict]
      · exact bare id identifier given
  exact finish.2 id identifier given

end Draft

namespace Graph

open Relation

/-- The nodes that an output needs, in the order of the graph. -/
def needed (graph : Graph) (output : Node) : List Node :=
  graph.nodes.filter fun node => (graph.closure output.id).contains node.id

/-- Two graphs without repeated ids in which an output needs the same nodes. -/
structure Concur (graph other : Graph) (output : Node) : Prop where
  distinct : (graph.nodes.map (·.id)).Nodup
  distinct' : (other.nodes.map (·.id)).Nodup
  needed : ∀ node, node ∈ graph.needed output ↔ node ∈ other.needed output

variable {graph other : Graph} {output node target : Node} {slot : Nat} {draft draft' : Draft}

theorem mem_needed :
    node ∈ graph.needed output ↔ node ∈ graph.nodes ∧ node.id ∈ graph.closure output.id := by
  rw [needed, List.mem_filter, List.contains_iff_mem]

theorem mem_orderFor_iff (distinct : (graph.nodes.map (·.id)).Nodup) :
    node ∈ (graph.orderFor output).nodes ↔ node ∈ graph.needed output := by
  rw [mem_orderFor, mem_needed]
  exact and_congr_left fun _ => ⟨find?_mem, find?_of_distinct distinct⟩

theorem orderFor_perm (distinct : (graph.nodes.map (·.id)).Nodup) (output : Node) :
    (graph.orderFor output).nodes.Perm (graph.needed output) := by
  have listed : (graph.orderFor output).nodes.Nodup := (graph.orderFor_sound output).distinct.of_map
  have kept : (graph.needed output).Nodup := distinct.of_map.filter _
  exact (List.perm_ext_iff_of_nodup listed kept).2 fun _ => mem_orderFor_iff distinct

theorem feeder?_needed (distinct : (graph.nodes.map (·.id)).Nodup)
    (member : node ∈ graph.needed output) (feeds : graph.feeder? node slot = some target) :
    target ∈ graph.needed output := by
  rw [mem_needed] at member ⊢
  exact ⟨feeder?_mem feeds, closure_closed _ (find?_of_distinct distinct member.1) member.2 feeds⟩

/-- A needed node on no cycle keeps all its wires. -/
theorem source?_of_acyclic (distinct : (graph.nodes.map (·.id)).Nodup)
    (member : node ∈ graph.needed output) (acyclic : ¬ graph.OnCycle node) (slot : Nat) :
    graph.source? (graph.orderFor output) node slot =
      (graph.feeder? node slot).filter fun target => !target.kind.isOutput := by
  have uncut : (graph.orderFor output).isCut node.id slot = false := by
    rw [orderFor, Order.isCut_restrict,
      not_isCut (find?_of_distinct distinct (mem_needed.1 member).1) acyclic, Bool.and_false]
  simp [source?, uncut]

/-- Where no two needed ids give the same identifier, every value has the bare one. -/
theorem given?_of_apart (distinct : (graph.nodes.map (·.id)).Nodup)
    (apart : ((graph.needed output).map fun node => sanitized node.id).Nodup)
    (drafted : graph.drafts .lenient output = .ok draft) {id identifier : String}
    (given : draft.identifiers.given? id = some identifier) : identifier = Identifiers.base id := by
  -- the strict compilation has nothing to reject, and so it is the same
  have accepted : ¬ graph.Rejects ⟨true, false⟩ output := by
    intro reason
    rcases reason with ⟨strict, -⟩ | ⟨-, node, member, other, member', different, clash⟩
    · cases strict
    · rw [mem_orderFor_iff distinct] at member member'
      exact different (List.inj_on_of_nodup_map apart member member' clash.2.2)
  cases strictly : graph.drafts ⟨true, false⟩ output with
  | error error => exact absurd (drafts_error_iff.1 ⟨error, strictly⟩) accepted
  | ok draft' =>
    have same := drafts_lenient strictly
    rw [drafted] at same
    cases same
    exact Draft.given?_of_strict rfl strictly given

namespace Concur

theorem symm (same : graph.Concur other output) : other.Concur graph output :=
  ⟨same.distinct', same.distinct, fun node => (same.needed node).symm⟩

theorem perm (same : graph.Concur other output) :
    (graph.needed output).Perm (other.needed output) :=
  (List.perm_ext_iff_of_nodup (same.distinct.of_map.filter _) (same.distinct'.of_map.filter _)).2
    same.needed

theorem feeds (same : graph.Concur other output) (member : node ∈ graph.needed output)
    (feeds : graph.feeder? node slot = some target) : other.feeder? node slot = some target := by
  have present := (same.needed target).1 (feeder?_needed same.distinct member feeds)
  rcases Option.bind_eq_some_iff.1 feeds with ⟨id, wired, found⟩
  refine Option.bind_eq_some_iff.2 ⟨id, wired, ?_⟩
  rw [← find?_id found]
  exact find?_of_distinct same.distinct' (mem_needed.1 present).1

theorem feeder? (same : graph.Concur other output) (member : node ∈ graph.needed output)
    (slot : Nat) : graph.feeder? node slot = other.feeder? node slot := by
  apply Option.ext
  intro target
  exact ⟨same.feeds member, same.symm.feeds ((same.needed node).1 member)⟩

/-- What a needed node needs in one of the graphs, it needs in the other. -/
theorem needs (same : graph.Concur other output) (member : node ∈ graph.needed output)
    (needs : TransGen graph.Reads node target) :
    target ∈ graph.needed output ∧ TransGen other.Reads node target := by
  induction needs with
  | single reads =>
    rcases reads with ⟨slot, feeds⟩
    exact ⟨feeder?_needed same.distinct member feeds, .single ⟨slot, same.feeds member feeds⟩⟩
  | tail _ reads ih =>
    rcases reads with ⟨slot, feeds⟩
    rcases ih with ⟨inside, needs⟩
    exact ⟨feeder?_needed same.distinct inside feeds, needs.tail ⟨slot, same.feeds inside feeds⟩⟩

theorem acyclic (same : graph.Concur other output)
    (acyclic : ∀ node ∈ graph.needed output, ¬ graph.OnCycle node) :
    ∀ node ∈ other.needed output, ¬ other.OnCycle node :=
  fun node member cycle =>
    acyclic node ((same.needed node).2 member) (same.symm.needs member cycle).2

theorem apart (same : graph.Concur other output)
    (apart : ((graph.needed output).map fun node => sanitized node.id).Nodup) :
    ((other.needed output).map fun node => sanitized node.id).Nodup :=
  (same.perm.map _).nodup_iff.1 apart

theorem given (same : graph.Concur other output)
    (apart : ((graph.needed output).map fun node => sanitized node.id).Nodup)
    (drafted : graph.drafts .lenient output = .ok draft)
    (drafted' : other.drafts .lenient output = .ok draft') {id identifier : String}
    (given : draft.identifiers.given? id = some identifier) :
    draft'.identifiers.given? id = some identifier := by
  rcases ((drafts_knows drafted).given id).1 (by rw [given]; rfl) with ⟨node, listed, proper, rfl⟩
  have listed' : node ∈ (other.orderFor output).nodes := by
    rw [mem_orderFor_iff same.distinct', ← same.needed]
    exact (mem_orderFor_iff same.distinct).1 listed
  rcases (drafts_knows drafted').bound node listed' proper with ⟨identifier', -, given', -⟩
  rw [given', given?_of_apart same.distinct apart drafted given,
    given?_of_apart same.distinct' (same.apart apart) drafted' given']

/-- The values have the same identifiers in both graphs. -/
theorem given? (same : graph.Concur other output)
    (apart : ((graph.needed output).map fun node => sanitized node.id).Nodup)
    (drafted : graph.drafts .lenient output = .ok draft)
    (drafted' : other.drafts .lenient output = .ok draft') (id : String) :
    draft.identifiers.given? id = draft'.identifiers.given? id := by
  apply Option.ext
  intro identifier
  exact ⟨same.given apart drafted drafted', same.symm.given (same.apart apart) drafted' drafted⟩

/-- A needed node has the same statement in both graphs. -/
theorem emits (same : graph.Concur other output)
    (acyclic : ∀ node ∈ graph.needed output, ¬ graph.OnCycle node)
    (apart : ((graph.needed output).map fun node => sanitized node.id).Nodup)
    (drafted : graph.drafts .lenient output = .ok draft)
    (drafted' : other.drafts .lenient output = .ok draft') (member : node ∈ graph.needed output)
    {statement : Statement}
    (emits : draft.Emits .lenient (graph.orderFor output) node statement) :
    draft'.Emits .lenient (other.orderFor output) node statement := by
  have member' := (same.needed node).1 member
  have given := same.given? apart drafted drafted'
  have reference (target : Node) : draft.reference? target = draft'.reference? target := by
    rw [Draft.reference?, Draft.reference?, given]
  refine emits.agree (fun slot => ?_) fun identifier here => by rw [← given, here]
  rw [drafts_find? drafted ((mem_orderFor_iff same.distinct).2 member),
    drafts_find? drafted' ((mem_orderFor_iff same.distinct').2 member'),
    source?_of_acyclic same.distinct member (acyclic node member),
    source?_of_acyclic same.distinct' member' (same.acyclic acyclic node member'),
    same.feeder? member slot, funext reference]

end Concur

/-- Two graphs with the same selected output that needs the same nodes in both, with other nodes in
any number and all of them in any order: if ids are distinct, what the output needs is on no cycle,
and its ids are distinct when sanitized as well, the bodies differ in the order of the statements
before the last one, which sets the same color. -/
theorem shader_perm (graph other : Graph) (output : Node)
    (distinct : (graph.nodes.map (·.id)).Nodup) (distinct' : (other.nodes.map (·.id)).Nodup)
    (selected : graph.output? = some output) (selected' : other.output? = some output)
    (needed : ∀ node, node ∈ graph.needed output ↔ node ∈ other.needed output)
    (acyclic : ∀ node ∈ graph.needed output, ¬ graph.OnCycle node)
    (apart : ((graph.needed output).map fun node => sanitized node.id).Nodup) :
    ∃ values values' color, graph.shader = .body (values ++ [.output color]) ∧
      other.shader = .body (values' ++ [.output color]) ∧ values.Perm values' := by
  have same : graph.Concur other output := ⟨distinct, distinct', needed⟩
  have first := find?_of_distinct distinct (output?_mem selected).1
  have first' := find?_of_distinct distinct' (output?_mem selected').1
  have member : output ∈ graph.needed output :=
    (mem_orderFor_iff distinct).1 (mem_orderFor_first first)
  have member' : output ∈ other.needed output := (needed output).1 member
  obtain ⟨draft, drafted, body⟩ := shader_drafted selected first
  obtain ⟨draft', drafted', body'⟩ := shader_drafted selected' first'
  obtain ⟨before, values, ends, written, statements⟩ :=
    statements_end (output?_mem selected).2 first (acyclic output member) drafted
  obtain ⟨before', values', ends', written', statements'⟩ :=
    statements_end (output?_mem selected').2 first' (same.acyclic acyclic output member') drafted'
  have color : draft'.Emits .lenient (other.orderFor output) output
      (.output ((draft.inputs (graph.orderFor output) output).get 0 .vec3f).code) :=
    same.emits acyclic apart drafted drafted' member
      (.output (Node.compile_output (output?_mem selected).2 _ _))
  have rearranged : (before.filter (·.emits output)).Perm (before'.filter (·.emits output)) := by
    have listed := ((orderFor_perm distinct output).trans same.perm).trans
      (orderFor_perm distinct' output).symm
    rw [ends, ends', List.perm_append_right_iff] at listed
    exact listed.filter _
  have carried : List.Forall₂ (draft'.Emits .lenient (other.orderFor output))
      (before.filter (·.emits output)) values := by
    apply ((List.forall₂_and_left _ _).2 ⟨fun _ member => member, written⟩).imp
    intro node statement both
    rcases both with ⟨inside, emits⟩
    have listed : node ∈ (graph.orderFor output).nodes := by
      rw [ends]
      exact List.mem_append_left _ (List.mem_filter.1 inside).1
    exact same.emits acyclic apart drafted drafted' ((mem_orderFor_iff distinct).1 listed) emits
  obtain ⟨middle, there, perm⟩ := List.perm_comp_forall₂ rearranged written'
  have alike : middle = values := Draft.Emits.all_unique there carried
  refine ⟨values, values', _, by rw [body, statements], ?_, alike ▸ perm⟩
  rw [body', statements', color.of_isOutput (output?_mem selected).2]

/-- The sum of the time and the position in another order, and two nodes that read each other, one
of them the position as well. -/
def tangled : Graph where
  nodes := [⟨"c", "Add", [some "d", some "p"], []⟩, ⟨"d", "Saturate", [some "c"], []⟩] ++
    summed.nodes.reverse
  wires := []

/-- The position is declared before the time in one of the two, and behind it in the other. -/
theorem summed_perm : ∃ output values values' color,
    (summed.nodes.map (·.id)).Nodup ∧ (tangled.nodes.map (·.id)).Nodup ∧
      summed.output? = some output ∧ tangled.output? = some output ∧
      (∀ node, node ∈ summed.needed output ↔ node ∈ tangled.needed output) ∧
      (∀ node ∈ summed.needed output, ¬ summed.OnCycle node) ∧
      ((summed.needed output).map fun node => sanitized node.id).Nodup ∧
      summed.shader = .body (values ++ [.output color]) ∧
      tangled.shader = .body (values' ++ [.output color]) ∧ values.Perm values' ∧
      summed.shader.text ≠ tangled.shader.text := by
  have distinct : (summed.nodes.map (·.id)).Nodup := by decide +kernel
  have distinct' : (tangled.nodes.map (·.id)).Nodup := by decide +kernel
  let output : Node := ⟨"out", "OutputFinal", [some "m"], []⟩
  have selected : summed.output? = some output := rfl
  have selected' : tangled.output? = some output := rfl
  have all : summed.needed output = summed.nodes := by
    rw [needed, List.filter_eq_self]
    decide +kernel
  have all' : tangled.needed output = summed.nodes.reverse := by
    have unneeded : ∀ node ∈ tangled.nodes.take 2,
        ¬ (tangled.closure output.id).contains node.id = true := by decide +kernel
    have kept : ∀ node ∈ tangled.nodes.drop 2,
        (tangled.closure output.id).contains node.id = true := by decide +kernel
    rw [needed, ← List.take_append_drop 2 tangled.nodes, List.filter_append,
      List.filter_eq_nil_iff.2 unneeded, List.filter_eq_self.2 kept]
    rfl
  have same (node : Node) : node ∈ summed.needed output ↔ node ∈ tangled.needed output := by
    rw [all, all', List.mem_reverse]
  have acyclic : ∀ node ∈ summed.needed output, ¬ summed.OnCycle node := by
    have apart : ∀ node ∈ summed.nodes, node.id ∉ summed.sources node := by decide +kernel
    rw [all]
    intro node member
    rw [onCycle_iff (find?_of_distinct distinct member)]
    exact apart node member
  have apart : ((summed.needed output).map fun node => sanitized node.id).Nodup := by
    rw [all]
    decide +kernel
  obtain ⟨values, values', color, body, body', perm⟩ :=
    shader_perm summed tangled output distinct distinct' selected selected' same acyclic apart
  exact ⟨output, values, values', color, distinct, distinct', selected, selected', same, acyclic,
    apart, body, body', perm, by decide +kernel⟩

end Graph

end NodeShader
