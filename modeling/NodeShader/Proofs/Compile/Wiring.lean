import Mathlib.Data.List.Forall2
import NodeShader.Proofs.Compile.Draft

/-!
No wire is lost on the way: although a node is compiled while later nodes have no value yet, it
reads what it would read if all values were known.
-/

namespace NodeShader

/-- Whether a node has a statement: outputs other than the selected one have none. -/
def Node.emits (node output : Node) : Bool := !(node.kind.isOutput && node.id != output.id)

/-- The nodes that have a statement. -/
def Order.emitting (order : Order) (output : Node) : List Node := order.nodes.filter (·.emits output)

namespace Draft

variable {graph : Graph} {options : Options} {output node target : Node} {order : Order}
  {draft next final : Draft} {before after : List Node} {slot : Nat}

/-- What a node reads when its slots are looked up in the values of a draft, as a statement. -/
inductive Emits (options : Options) (order : Order) (draft : Draft) (node : Node) :
    Statement → Prop where
  | declare {identifier : String} {value : Typed}
      (compiled : (node.compile (draft.inputs order node) options).result = .ok (.value value))
      (given : draft.identifiers.given? node.id = some identifier) :
      Emits options order draft node (.declare identifier value)
  | output {code : Code}
      (compiled : (node.compile (draft.inputs order node) options).result = .ok (.color code)) :
      Emits options order draft node (.output code)

/-- A slot without a source stays empty, whatever was added so far. -/
theorem find?_of_source?_none (sound : order.Sound graph) (knows : Knows before draft)
    (listed : before ⊆ order.nodes) (nothing : graph.source? order node slot = none) :
    (draft.inputs order node).find? slot = none := by
  rw [Inputs.find?, inputs, Inputs.slot?_slots]
  cases cut : order.isCut node.id slot with
  | true => rfl
  | false =>
    cases input : node.input? slot with
    | none => rfl
    | some id =>
      apply knows.unbound id
      rw [← Option.not_isSome_iff_eq_none, knows.given]
      intro reason
      rcases reason with ⟨other, member, proper, rfl⟩
      have feeds : graph.feeder? node slot = some other := by
        rw [Graph.feeder?, input]
        exact sound.first other (listed member)
      rw [Graph.source?_eq_some_iff.2 ⟨cut, feeds, proper⟩] at nothing
      cases nothing

/-- The source of a slot is known before the node itself is compiled. -/
theorem find?_of_source? (knows : Knows before draft) (member : target ∈ before)
    (source : graph.source? order node slot = some target) :
    ∃ identifier type, draft.identifiers.given? target.id = some identifier ∧
      target.kind.outputType? = some type ∧
      (draft.inputs order node).find? slot = some ⟨.name identifier, type⟩ := by
  rcases Graph.source?_eq_some_iff.1 source with ⟨uncut, feeds, proper⟩
  rcases Option.bind_eq_some_iff.1 feeds with ⟨id, input, found⟩
  rcases knows.bound target member proper with ⟨identifier, type, given, kind, bound⟩
  refine ⟨identifier, type, given, kind, ?_⟩
  rw [Inputs.find?, inputs, Inputs.slot?_slots, uncut, input]
  rw [Graph.find?_id found] at bound
  exact bound

theorem source?_before (sound : order.Sound graph) (split : order.nodes = before ++ node :: after)
    (source : graph.source? order node slot = some target) : target ∈ before := by
  rcases Graph.source?_eq_some_iff.1 source with ⟨uncut, feeds, -⟩
  exact sound.fed before node after split slot target feeds uncut

/-- What is read of a node: its identifier, with the type of its kind. -/
def reference? (draft : Draft) (target : Node) : Option Typed := do
  return ⟨.name (← draft.identifiers.given? target.id), ← target.kind.outputType?⟩

/-- What stands in a slot is what is read of its source. -/
theorem find?_eq (sound : order.Sound graph) (knows : Knows before draft)
    (listed : before ⊆ order.nodes)
    (earlier : ∀ target, graph.source? order node slot = some target → target ∈ before) :
    (draft.inputs order node).find? slot =
      (graph.source? order node slot).bind draft.reference? := by
  cases source : graph.source? order node slot with
  | none => exact find?_of_source?_none sound knows listed source
  | some target =>
    obtain ⟨identifier, type, given, kind, found⟩ :=
      find?_of_source? knows (earlier target source) source
    simp [found, reference?, given, kind]

/-- Two drafts that agree on what was given to the nodes before a node give it the same inputs. -/
theorem find?_agree (sound : order.Sound graph) (split : order.nodes = before ++ node :: after)
    {fewer more : List Node} (knows : Knows fewer draft) (knows' : Knows more next)
    (earlier : before ⊆ fewer) (earlier' : before ⊆ more) (listed : fewer ⊆ order.nodes)
    (listed' : more ⊆ order.nodes)
    (kept : ∀ other ∈ before, other.kind.isOutput = false →
      next.identifiers.given? other.id = draft.identifiers.given? other.id) (slot : Nat) :
    (draft.inputs order node).find? slot = (next.inputs order node).find? slot := by
  have inside (target : Node) (source : graph.source? order node slot = some target) :
      target ∈ before := source?_before sound split source
  rw [find?_eq sound knows listed fun target source => earlier (inside target source),
    find?_eq sound knows' listed' fun target source => earlier' (inside target source)]
  apply Option.bind_congr
  intro target source
  rcases Graph.source?_eq_some_iff.1 source with ⟨-, -, proper⟩
  rw [reference?, reference?, kept target (inside target source) proper]

theorem Emits.agree {statement : Statement} {order' : Order}
    (emits : Emits options order draft node statement)
    (same : ∀ slot, (draft.inputs order node).find? slot = (next.inputs order' node).find? slot)
    (kept : ∀ identifier, draft.identifiers.given? node.id = some identifier →
      next.identifiers.given? node.id = some identifier) :
    Emits options order' next node statement := by
  have compile := Node.compile_congr same node options
  cases emits with
  | declare compiled given =>
    rw [compile] at compiled
    exact .declare compiled (kept _ given)
  | output compiled =>
    rw [compile] at compiled
    exact .output compiled

/-- A node has one statement. -/
theorem Emits.unique {statement statement' : Statement}
    (emits : Emits options order draft node statement)
    (emits' : Emits options order draft node statement') : statement = statement' := by
  cases emits with
  | declare compiled given =>
    cases emits' with
    | declare compiled' given' =>
      rw [compiled] at compiled'
      rw [given] at given'
      cases compiled'
      cases given'
      rfl
    | output compiled' =>
      rw [compiled] at compiled'
      cases compiled'
  | output compiled =>
    cases emits' with
    | declare compiled' =>
      rw [compiled] at compiled'
      cases compiled'
    | output compiled' =>
      rw [compiled] at compiled'
      cases compiled'
      rfl

theorem Emits.all_unique {nodes : List Node} {statements statements' : List Statement}
    (emitted : List.Forall₂ (Emits options order draft) nodes statements)
    (emitted' : List.Forall₂ (Emits options order draft) nodes statements') :
    statements = statements' := by
  have alone : Relator.RightUnique (Emits options order draft) := fun _ _ _ => Emits.unique
  exact List.right_unique_forall₂' alone emitted emitted'

/-- The statement that a node adds is the one it has with its own value known as well. -/
theorem Emits.of_adds (added : Adds options output order draft node next)
    (new : draft.identifiers.given? node.id = none)
    (same : ∀ slot, (draft.inputs order node).find? slot = (next.inputs order node).find? slot) :
    ∃ statements, next.statements = draft.statements ++ statements ∧
      List.Forall₂ (Emits options order next)
        ([node].filter (·.emits output)) statements := by
  have compile := Node.compile_congr same node options
  cases added with
  | skip sink other => exact ⟨[], by simp, by simp [Node.emits, sink, other]⟩
  | color sink selected =>
    refine ⟨_, rfl, ?_⟩
    have compiled := Node.compile_output sink (draft.inputs order node) options
    rw [compile] at compiled
    simpa [Node.emits, sink, selected] using Emits.output compiled
  | @value proper value identifier identifiers compiled type allocated =>
    rcases Identifiers.allocate_new new allocated with ⟨-, rfl, -, -⟩
    refine ⟨_, rfl, ?_⟩
    rw [compile] at compiled
    have given : (draft.declared (draft.identifiers.give node.id identifier) node.id identifier
        value).identifiers.given? node.id = some identifier := by
      rw [declared, Identifiers.given?_give, if_pos rfl]
    simpa [Node.emits, proper] using Emits.declare compiled given

/-- What a run has written is what its nodes have with all values so far. -/
def Written (options : Options) (output : Node) (order : Order) (before : List Node)
    (draft : Draft) : Prop :=
  Knows before draft ∧
    List.Forall₂ (Emits options order draft) (before.filter (·.emits output)) draft.statements

theorem Written.add (sound : order.Sound graph) (split : order.nodes = before ++ node :: after)
    (written : Written options output order before draft)
    (added : Adds options output order draft node next) :
    Written options output order (before ++ [node]) next := by
  rcases written with ⟨knows, statements⟩
  have new := new_id sound split
  have knows' := knows.add new added
  have listed : before ⊆ order.nodes := by simp [split]
  have listed' : before ++ [node] ⊆ order.nodes := by simp [split]
  have kept (other : Node) (member : other ∈ before) :
      next.identifiers.given? other.id = draft.identifiers.given? other.id :=
    added.given? (knows.new new) (new other member)
  have earlier : List.Forall₂ (Emits options order next) (before.filter (·.emits output))
      draft.statements := by
    apply ((List.forall₂_and_left _ _).2 ⟨fun _ member => member, statements⟩).imp
    intro other statement both
    rcases both with ⟨member, emits⟩
    have member := (List.mem_filter.1 member).1
    rcases List.append_of_mem member with ⟨front, back, rfl⟩
    have inside : front ⊆ front ++ other :: back := by simp
    refine emits.agree ?_ fun identifier given => by rw [kept other member, given]
    have split' : order.nodes = front ++ other :: (back ++ node :: after) := by simp [split]
    refine find?_agree sound split' knows knows' inside (by simp) listed listed' ?_
    intro earlier earlier_member _
    exact kept earlier (inside earlier_member)
  obtain ⟨more, same, last⟩ := Emits.of_adds added (knows.new new)
    (find?_agree sound split knows knows' (by simp) (by simp) listed listed'
      fun other member _ => kept other member)
  refine ⟨knows', ?_⟩
  rw [same, List.filter_append]
  exact List.rel_append earlier last

theorem run_written (sound : order.Sound graph)
    (ran : (order.nodes.foldlM (Draft.add options output order) .empty).result = .ok final) :
    Written options output order order.nodes final := by
  have whole : order.nodes = [] ++ order.nodes ++ [] := by simp
  exact run_invariant (Written options output order)
    (fun _ _ _ _ _ split written added => written.add sound split added) whole ⟨.empty, .nil⟩ ran

end Draft

namespace Graph

variable {graph : Graph} {options : Options} {output node : Node} {draft : Draft}

/-- The statements of a finished draft are those of the nodes that have one. -/
theorem drafts_emit (drafted : graph.drafts options output = .ok draft) :
    List.Forall₂ (draft.Emits options (graph.orderFor output))
      ((graph.orderFor output).emitting output) draft.statements :=
  (Draft.run_written (graph.orderFor_sound output) drafted).2

/-- In a finished draft a slot holds what is read of its source. -/
theorem drafts_find? (drafted : graph.drafts options output = .ok draft)
    (member : node ∈ (graph.orderFor output).nodes) (slot : Nat) :
    (draft.inputs (graph.orderFor output) node).find? slot =
      (graph.source? (graph.orderFor output) node slot).bind draft.reference? := by
  have sound := graph.orderFor_sound output
  apply Draft.find?_eq sound (drafts_knows drafted) (List.Subset.refl _)
  intro target source
  rcases List.append_of_mem member with ⟨before, after, split⟩
  rw [split]
  exact List.mem_append_left _ (Draft.source?_before sound split source)

end Graph

/-- The texts of the statements of a shader that is no fallback. -/
def Shader.texts? : Shader → Option (List String)
  | .fallback => none
  | .body statements => some (statements.map Statement.text)

theorem Graph.exists_body {graph : Graph} {options : Options} {texts : List String}
    (written : (graph.compile options).result.toOption.bind Shader.texts? = some texts) :
    ∃ statements, (graph.compile options).result = .ok (.body statements) ∧
      statements.map Statement.text = texts := by
  rcases Option.bind_eq_some_iff.1 written with ⟨shader, compiled, written⟩
  cases shader with
  | fallback => cases written
  | body statements =>
    cases result : (graph.compile options).result with
    | error error =>
      rw [result] at compiled
      cases compiled
    | ok shader =>
      rw [result] at compiled
      cases compiled
      cases written
      exact ⟨statements, rfl, rfl⟩

/-- A sum and its bounded value that read each other, and a formula with a dangling wire. -/
def Graph.loop : Graph where
  nodes := [
    ⟨"out", "OutputFinal", [some "x"], []⟩,
    ⟨"x", "Add", [some "y", some "e"], []⟩,
    ⟨"y", "Saturate", [some "x"], []⟩,
    ⟨"e", "Expr", [some "y", some "ghost"], [("expr", .string "sin(a) + b")]⟩]
  wires := []

theorem Graph.loop_body : ∃ statements, (loop.compile .lenient).result = .ok (.body statements) ∧
    statements.map Statement.text = [
      "let n_y: vec3f = clamp(vec3f(0.0, 0.0, 0.0), vec3f(0.0), vec3f(1.0));",
      "let n_e: f32 = (sin(((n_y.x + n_y.y + n_y.z) / 3.0)) + 0.0);",
      "let n_x: vec3f = n_y + vec3f(n_e);",
      "final_color = n_x;"] :=
  exists_body (by decide +kernel)

end NodeShader
