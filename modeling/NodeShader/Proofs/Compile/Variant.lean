import NodeShader.Proofs.Compile.Wiring
import NodeShader.Proofs.Graph.Image

/-!
Variants of a graph: the same nodes under the same ids, written in another way. A variant compiles
to what the graph compiles to, for each output that is selected.
-/

namespace NodeShader

theorem Order.isCut_map {name : String → String} (injective : Function.Injective name)
    (order : Order) (image : Node → Node) (id : String) (slot : Nat) :
    (order.map name image).isCut (name id) slot = order.isCut id slot := by
  have named (other : String) : (name other == name id) = (other == id) := by
    rw [Bool.eq_iff_iff, beq_iff_eq, beq_iff_eq, injective.eq_iff]
  simp only [isCut, map, Cut.rename, List.any_map, Function.comp_def, named]

namespace Graph

/-- What a graph compiles to when this output is selected. -/
def resultFor (graph : Graph) (options : Options) (selected : Option Node) :
    Except CompileError Shader :=
  match selected with
  | none => .ok .fallback
  | some output =>
    if (graph.orderFor output).nodes.isEmpty then .ok .fallback
    else graph.drafts options output >>= fun draft => .ok (.body draft.statements)

theorem compile_eq_resultFor (graph : Graph) (options : Options) :
    (graph.compile options).result = graph.resultFor options graph.output? :=
  compile_result graph options

namespace IsImage

variable {graph other : Graph} {name : String → String} {image : Node → Node}

/-- What an output of an image needs is the image of what the output needs. -/
theorem orderFor (same : other.IsImage graph name image) (output : Node) :
    other.orderFor (image output) = (graph.orderFor output).map name image := by
  rw [Graph.orderFor, same.id, same.restrict output.id, Graph.orderFor]

theorem source? (same : other.IsImage graph name image)
    (kind : ∀ node, (image node).kind = node.kind) (order : Order) (node : Node) (slot : Nat) :
    other.source? (order.map name image) (image node) slot =
      (graph.source? order node slot).map image := by
  unfold Graph.source?
  rw [same.id, Order.isCut_map same.injective, same.feeds]
  split
  · rfl
  · rw [Option.filter_map]
    simp only [Function.comp_def, kind]

end IsImage

/-- A graph with the same ids whose nodes are fed as those of another, and contribute the same. -/
structure IsVariant (other graph : Graph) (image : Node → Node) : Prop
    extends other.IsImage graph (fun id => id) image where
  kind : ∀ node, (image node).kind = node.kind
  compile : ∀ node inputs options,
    ((image node).compile inputs options).result = (node.compile inputs options).result

namespace IsVariant

variable {graph other : Graph} {image : Node → Node} {order : Order} {options : Options}
  {output node : Node} {draft : Draft} {before after rest : List Node}

theorem knows (same : other.IsVariant graph image) (knows : Draft.Knows before draft) :
    Draft.Knows (before.map image) draft where
  given id := by
    rw [knows.given]
    simp only [List.mem_map, exists_exists_and_eq_and, same.kind, same.id]
  bound := by
    simp only [List.forall_mem_map, same.kind, same.id]
    exact knows.bound
  unbound := knows.unbound

/-- At its turn a node reads in a variant what it reads in the graph. -/
theorem find? (same : other.IsVariant graph image) (sound : order.Sound graph)
    (sound' : (order.map (fun id => id) image).Sound other)
    (split : order.nodes = before ++ node :: after) (knows : Draft.Knows before draft) (slot : Nat) :
    (draft.inputs (order.map (fun id => id) image) (image node)).find? slot =
      (draft.inputs order node).find? slot := by
  have listed : before.map image ⊆ (order.map (fun id => id) image).nodes :=
    List.map_subset image (by simp [split])
  have inside (target : Node) (source : graph.source? order node slot = some target) :
      target ∈ before := Draft.source?_before sound split source
  have inside' (target : Node)
      (source : other.source? (order.map (fun id => id) image) (image node) slot = some target) :
      target ∈ before.map image := by
    rw [same.source? same.kind, Option.map_eq_some_iff] at source
    rcases source with ⟨target, source, rfl⟩
    exact List.mem_map_of_mem (inside target source)
  rw [Draft.find?_eq sound knows (by simp [split]) inside,
    Draft.find?_eq sound' (same.knows knows) listed inside', same.source? same.kind,
    Option.bind_map]
  apply Option.bind_congr
  intro target _
  simp only [Function.comp_apply, Draft.reference?, same.id, same.kind]

theorem add (same : other.IsVariant graph image) (options : Options) (output : Node)
    (reads : ∀ slot, (draft.inputs (order.map (fun id => id) image) (image node)).find? slot =
      (draft.inputs order node).find? slot) :
    (Draft.add options (image output) (order.map (fun id => id) image) draft (image node)).result =
      (Draft.add options output order draft node).result := by
  have compile : ((image node).compile (draft.inputs (order.map (fun id => id) image) (image node))
      options).result = (node.compile (draft.inputs order node) options).result := by
    rw [same.compile, Node.compile_congr reads]
  unfold Draft.add
  rw [same.kind, same.id, same.id]
  split
  · rfl
  · rw [Outcome.result_bind, Outcome.result_bind]
    rw [Draft.inputs, Draft.inputs] at compile
    rw [compile]

theorem foldlM_add (same : other.IsVariant graph image) (sound : order.Sound graph)
    (sound' : (order.map (fun id => id) image).Sound other) (options : Options) (output : Node)
    (split : order.nodes = before ++ rest) (knows : Draft.Knows before draft) :
    ((rest.map image).foldlM (Draft.add options (image output) (order.map (fun id => id) image))
      draft).result = (rest.foldlM (Draft.add options output order) draft).result := by
  induction rest generalizing before draft with
  | nil => rfl
  | cons node rest ih =>
    have added := same.add options output (same.find? sound sound' split knows)
    rw [List.map_cons, List.foldlM_cons, List.foldlM_cons, Outcome.result_bind,
      Outcome.result_bind, added]
    cases next : (Draft.add options output order draft node).result with
    | error error => rfl
    | ok draft' =>
      have knows' := knows.add (Draft.new_id sound split) (Draft.adds_of_add next)
      exact ih (by simp [split]) knows'

theorem drafts (same : other.IsVariant graph image) (options : Options) (output : Node) :
    other.drafts options (image output) = graph.drafts options output := by
  have sound' := other.orderFor_sound (image output)
  rw [same.orderFor] at sound'
  rw [Graph.drafts, same.orderFor]
  exact same.foldlM_add (graph.orderFor_sound output) sound' options output rfl .empty

theorem resultFor (same : other.IsVariant graph image) (options : Options)
    (selected : Option Node) :
    other.resultFor options (selected.map image) = graph.resultFor options selected := by
  cases selected with
  | none => rfl
  | some output =>
    have empty : (other.orderFor (image output)).nodes.isEmpty =
        (graph.orderFor output).nodes.isEmpty := by
      rw [same.orderFor]
      exact List.isEmpty_map
    simp only [Option.map_some, Graph.resultFor, same.drafts, empty]

end IsVariant

end Graph

end NodeShader
