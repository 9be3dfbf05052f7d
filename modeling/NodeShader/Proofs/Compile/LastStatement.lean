import NodeShader.Proofs.Compile.SelectedColor
import NodeShader.Proofs.Compile.Unneeded
import NodeShader.Proofs.Graph.Dependence

/-!
The end of a fragment body. A graph has one just when it has an output, and when that output is on
no cycle the last thing it does is to set the color.
-/

namespace NodeShader

theorem Program.head?_joinLines {line : String} {c : Char} (head : line.toList.head? = some c)
    (lines : List String) : (joinLines (line :: lines)).toList.head? = some c := by
  rw [joinLines, List.map_cons, String.join_cons, String.toList_append, String.toList_append,
    List.head?_append, List.head?_append, head, Option.some_or, Option.some_or]

/-- The fallback is not the text of any fragment body. -/
theorem Shader.text_eq_fallback_iff (shader : Shader) :
    shader.text = Program.fallback ↔ shader = .fallback := by
  cases shader with
  | fallback => exact iff_of_true rfl rfl
  | body statements =>
    refine iff_of_false (fun same => ?_) nofun
    have header : Program.header.toList.head? = some 's' := Program.head?_joinLines (by decide) _
    have fallback : Program.fallback.toList.head? = some '@' := Program.head?_joinLines (by decide) _
    have heads := congrArg (fun text => text.toList.head?) same
    simp only [text, Program.text, String.toList_append, List.head?_append, header, fallback,
      Option.some_or, Option.some.injEq] at heads
    cases heads

theorem forall₂_concat_left {α β : Type} {R : α → β → Prop} {items : List α} {last : α}
    {others : List β} (related : List.Forall₂ R (items ++ [last]) others) :
    ∃ front other, others = front ++ [other] ∧ List.Forall₂ R items front ∧ R last other := by
  have front := (List.forall₂_take_append _ _ _ related.flip).flip
  have back := (List.forall₂_drop_append _ _ _ related.flip).flip
  rcases List.forall₂_cons_left_iff.1 back with ⟨other, rest, here, nothing, same⟩
  cases nothing
  exact ⟨_, other, by rw [← same, List.take_append_drop], front, here⟩

theorem exists_left {α β : Type} {R : α → β → Prop} {items : List α} {others : List β}
    (related : List.Forall₂ R items others) {other : β} (member : other ∈ others) :
    ∃ item ∈ items, R item other := by
  induction related with
  | nil => cases member
  | cons here _ ih =>
    rcases List.mem_cons.1 member with rfl | member
    · exact ⟨_, List.mem_cons_self, here⟩
    · rcases ih member with ⟨item, inside, related⟩
      exact ⟨item, List.mem_cons_of_mem _ inside, related⟩

namespace Graph

open Relation

variable {graph : Graph} {output node : Node}

/-- A node on a cycle is among its own sources. -/
theorem onCycle_iff (first : graph.find? node.id = some node) :
    graph.OnCycle node ↔ node.id ∈ graph.sources node := by
  rw [OnCycle, TransGen.head'_iff, mem_sources]
  constructor
  · intro cycle
    rcases cycle with ⟨target, ⟨slot, feeds⟩, back⟩
    exact ⟨slot, target, feeds, (mem_closure_iff (feeder?_first feeds)).2 ⟨node, rfl, back⟩⟩
  · intro cycle
    rcases cycle with ⟨slot, target, feeds, member⟩
    rcases (mem_closure_iff (feeder?_first feeds)).1 member with ⟨other, same, back⟩
    have found := first_of_needs (feeder?_first feeds) back
    rw [same, first] at found
    cases found
    exact ⟨target, ⟨slot, feeds⟩, back⟩

theorem shader_eq_fallback_iff (graph : Graph) :
    graph.shader = .fallback ↔ ∀ node ∈ graph.nodes, node.kind.isOutput = false := by
  constructor
  · intro fallback node member
    by_contra sink
    obtain ⟨output, selected⟩ := exists_output ⟨node, member, by simpa using sink⟩
    obtain ⟨first, found⟩ := exists_first (output?_mem selected).1
    obtain ⟨draft, -, body⟩ := shader_drafted selected found
    rw [fallback] at body
    cases body
  · intro proper
    have compiled := compile_shader graph
    rw [compile_result] at compiled
    cases selected : graph.output? with
    | none =>
      rw [selected] at compiled
      exact (Except.ok.inj compiled).symm
    | some output =>
      obtain ⟨member, sink⟩ := output?_mem selected
      rw [proper output member] at sink
      cases sink

/-- An output on no cycle is the last of the nodes that it needs. -/
theorem orderFor_ends (first : graph.find? output.id = some output)
    (acyclic : ¬ graph.OnCycle output) :
    ∃ before, (graph.orderFor output).nodes = before ++ [output] := by
  have sound := graph.order_sound
  rcases List.append_of_mem (order_complete first) with ⟨before, after, split⟩
  have needed : output.id ∈ graph.closure output.id := mem_closure_self (by rw [first]; rfl)
  have rest : after.filter (fun node => (graph.closure output.id).contains node.id) = [] := by
    rw [List.filter_eq_nil_iff]
    intro node member inside
    rw [List.contains_iff_mem, mem_closure_iff first] at inside
    rcases inside with ⟨target, same, needs⟩
    -- what is needed stands before the output, so it cannot stand behind it as well
    have split' : graph.order.nodes = (before ++ [output]) ++ after := by simp [split]
    have earlier : target ∈ before ++ [output] := by
      rcases reflTransGen_iff_eq_or_transGen.1 needs with rfl | needs
      · simp
      · exact List.mem_append_left _ (needs_before split acyclic needs)
    exact sound.other_id split' earlier member same
  refine ⟨before.filter fun node => (graph.closure output.id).contains node.id, ?_⟩
  rw [orderFor, Order.restrict, split]
  simp only [List.filter_append, List.filter_cons, List.contains_iff_mem, needed, if_true, rest]

/-- The statements for an output on no cycle: those of the nodes before it, and the color. -/
theorem statements_end {draft : Draft} (sink : output.kind.isOutput = true)
    (first : graph.find? output.id = some output) (acyclic : ¬ graph.OnCycle output)
    (drafted : graph.drafts .lenient output = .ok draft) :
    ∃ before values, (graph.orderFor output).nodes = before ++ [output] ∧
      List.Forall₂ (draft.Emits .lenient (graph.orderFor output)) (before.filter (·.emits output))
        values ∧
      draft.statements = values ++
        [.output ((draft.inputs (graph.orderFor output) output).get 0 .vec3f).code] := by
  obtain ⟨before, ends⟩ := orderFor_ends first acyclic
  have emitting : (graph.orderFor output).emitting output =
      before.filter (·.emits output) ++ [output] := by
    rw [Order.emitting, ends, List.filter_append]
    simp [Node.emits]
  have written := drafts_emit drafted
  rw [emitting] at written
  obtain ⟨values, last, same, earlier, emits⟩ := forall₂_concat_left written
  rw [emits.of_isOutput sink] at same
  exact ⟨before, values, ends, earlier, same⟩

/-- The body for an output on no cycle ends by setting the color, which it does nowhere else. -/
theorem exists_last_color (selected : graph.output? = some output)
    (first : graph.find? output.id = some output) (acyclic : ¬ graph.OnCycle output) :
    ∃ values color, graph.shader = .body (values ++ [.output color]) ∧
      ∀ statement ∈ values, statement.setsColor = false := by
  obtain ⟨draft, drafted, body⟩ := shader_drafted selected first
  obtain ⟨before, values, ends, earlier, same⟩ :=
    statements_end (output?_mem selected).2 first acyclic drafted
  refine ⟨values, _, by rw [body, same], fun statement member => ?_⟩
  by_contra sets
  obtain ⟨node, inside, emits⟩ := exists_left earlier member
  obtain ⟨inside, emitted⟩ := List.mem_filter.1 inside
  have sink := emits.setsColor_iff.2 (by simpa using sets)
  have sound := graph.orderFor_sound output
  have other := sound.other_id ends inside (List.mem_singleton_self output)
  simp [Node.emits, sink, other] at emitted

/-- A graph compiles to the fallback just when it has no output, for what an output needs is never
empty; and if ids are distinct and the selected output is on no cycle, whatever cycles there are
elsewhere, every statement of the body but the last declares a value, and the last sets the color. -/
theorem shader_ends (graph : Graph) :
    (graph.shader.text = Program.fallback ↔
        ∀ node ∈ graph.nodes, node.kind.isOutput = false) ∧
      (∀ output, graph.output? = some output → (graph.orderFor output).nodes ≠ []) ∧
      ∀ output, (graph.nodes.map (·.id)).Nodup → graph.output? = some output →
        ¬ graph.OnCycle output →
          ∃ values color, graph.shader = .body (values ++ [.output color]) ∧
            ∀ statement ∈ values, statement.setsColor = false := by
  refine ⟨?_, fun output selected => ?_, fun output distinct selected acyclic => ?_⟩
  · rw [Shader.text_eq_fallback_iff, shader_eq_fallback_iff]
  · obtain ⟨first, found⟩ := exists_first (output?_mem selected).1
    exact List.ne_nil_of_mem (mem_orderFor_first found)
  · exact exists_last_color selected (find?_of_distinct distinct (output?_mem selected).1) acyclic

/-- The sum and its bounded value are on a cycle, but the output is not. -/
theorem loop_ends : (loop.nodes.map (·.id)).Nodup ∧ ∃ output, loop.output? = some output ∧
    ¬ loop.OnCycle output ∧ ∃ values color, loop.shader = .body (values ++ [.output color]) ∧
      ∀ statement ∈ values, statement.setsColor = false := by
  have distinct : (loop.nodes.map (·.id)).Nodup := by decide +kernel
  obtain ⟨output, selected⟩ : ∃ output, loop.output? = some output :=
    exists_output ⟨_, List.mem_cons_self, by decide +kernel⟩
  have acyclic : ¬ loop.OnCycle output := by
    have apart : loop.output?.map (fun output => (loop.sources output).contains output.id) =
        some false := by decide +kernel
    rw [selected, Option.map_some, Option.some.injEq] at apart
    rw [onCycle_iff (find?_of_distinct distinct (output?_mem selected).1), ← List.contains_iff_mem,
      apart]
    exact Bool.false_ne_true
  exact ⟨distinct, output, selected, acyclic,
    (shader_ends loop).2.2 output distinct selected acyclic⟩

end Graph

end NodeShader
