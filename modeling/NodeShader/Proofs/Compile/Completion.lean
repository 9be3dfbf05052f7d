import NodeShader.Graph.Scheme
import NodeShader.Proofs.Compile.Variant
import NodeShader.Proofs.Graph.Selection

/-!
Completed graphs. Filling in defaults keeps all that a graph says, is done once and for all, and
gives no node anything that its kind would not fall back to when it is compiled.
-/

namespace NodeShader

/-! ### The bundled scheme -/

theorem toList_of_ofList {text : String} {letters : List Char} (same : text = .ofList letters) :
    text.toList = letters := by
  rw [same, String.toList_ofList]

set_option maxRecDepth 10000 in
/-- The text of the bundled scheme is well formed, and describes the bundled scheme. -/
theorem Scheme.read?_bundledText : read? bundledText = some bundled := by
  rw [read?, Document.read?, @toList_of_ofList bundledText _ rfl]
  decide +kernel

theorem Graph.normalize?_eq (graph : Graph) : graph.normalize? = some graph.complete := by
  rw [normalize?, Scheme.read?_bundledText]
  rfl

/-! ### Completed nodes -/

theorem lookup_filter {α : Type} (entries : List (String × α)) (kept : String → Bool)
    (key : String) : (entries.filter fun entry => kept entry.1).lookup key =
      if kept key then entries.lookup key else none := by
  induction entries with
  | nil => simp
  | cons entry entries ih =>
    obtain ⟨name, value⟩ := entry
    rw [List.filter_cons, List.lookup_cons]
    by_cases same : key = name
    · subst same
      cases keep : kept key <;> simp [keep, ih]
    · have other : (key == name) = false := beq_eq_false_iff_ne.2 same
      cases kept name <;> simp [other, ih, List.lookup_cons]

namespace NodeScheme

theorem param?_complete (entry : NodeScheme) (node : Node) (key : String) :
    (entry.complete node).param? key = (node.param? key).or (entry.defaults.lookup key) := by
  calc
    _ = (node.param? key).or ((entry.defaults.filter fun item =>
        (node.param? item.1).isNone).lookup key) := List.lookup_append
    _ = (node.param? key).or (if (node.param? key).isNone then entry.defaults.lookup key
        else none) := by rw [lookup_filter entry.defaults fun key => (node.param? key).isNone]
    _ = _ := by cases node.param? key <;> simp

end NodeScheme

namespace Scheme

variable {scheme : Scheme} {node : Node} {key : String}

/-- The value that a kind has for a parameter that is left out. -/
def default? (scheme : Scheme) (kindName key : String) : Option Json := do
  (← scheme.entry? kindName).2.defaults.lookup key

/-- How many inputs a kind has. -/
def slotCount (scheme : Scheme) (kindName : String) : Nat :=
  (scheme.entry? kindName).elim 0 (·.2.inputs.length)

/-- What a completed node has: all that the node has, inputs up to those of its kind, wired to
nothing, and the defaults of the parameters it leaves out. -/
structure Completes (scheme : Scheme) (completed node : Node) : Prop where
  id : completed.id = node.id
  kindName : completed.kindName = node.kindName
  inputs : completed.inputs =
    node.inputs ++ List.replicate (scheme.slotCount node.kindName - node.inputs.length) none
  given : node.params <+: completed.params
  param? : ∀ key, completed.param? key = (node.param? key).or (scheme.default? node.kindName key)

theorem completes (scheme : Scheme) (node : Node) :
    scheme.Completes (scheme.complete node) node := by
  unfold complete
  cases entry : scheme.entry? node.kindName with
  | none =>
    refine ⟨rfl, rfl, ?_, List.prefix_refl _, fun key => ?_⟩
    · simp [slotCount, entry]
    · simp [default?, entry]
  | some known =>
    obtain ⟨name, known⟩ := known
    refine ⟨rfl, rfl, ?_, List.prefix_append _ _, fun key => ?_⟩
    · simp [slotCount, entry, NodeScheme.complete]
    · simp [NodeScheme.param?_complete, default?, entry]

/-- What leaves nothing out is complete. -/
theorem complete_eq_self (slots : scheme.slotCount node.kindName ≤ node.inputs.length)
    (given : ∀ key, (scheme.default? node.kindName key).isSome → (node.param? key).isSome) :
    scheme.complete node = node := by
  unfold complete
  cases entry : scheme.entry? node.kindName with
  | none => rfl
  | some known =>
    obtain ⟨name, known⟩ := known
    have padding : known.inputs.length - node.inputs.length = 0 := by
      simp only [slotCount, entry, Option.elim_some] at slots
      omega
    have missing : known.defaults.filter (fun item => (node.param? item.1).isNone) = [] := by
      rw [List.filter_eq_nil_iff]
      intro item member absent
      have default : (scheme.default? node.kindName item.1).isSome := by
        simp only [default?, entry, Option.bind_eq_bind, Option.bind_some,
          List.lookup_isSome_iff]
        exact ⟨item, member, beq_self_eq_true _⟩
      have held := given item.1 default
      rw [Option.isNone_iff_eq_none.1 absent] at held
      cases held
    simp [NodeScheme.complete, padding, missing]

theorem complete_complete (scheme : Scheme) (node : Node) :
    scheme.complete (scheme.complete node) = scheme.complete node := by
  have done := scheme.completes node
  apply complete_eq_self
  · rw [done.kindName, done.inputs, List.length_append, List.length_replicate]
    omega
  · intro key default
    rw [done.kindName] at default
    rw [done.param?, Option.isSome_or, default, Bool.or_true]

theorem input?_complete (scheme : Scheme) (node : Node) (slot : Nat) :
    (scheme.complete node).input? slot = node.input? slot := by
  have done := scheme.completes node
  unfold Node.input?
  rw [done.inputs, done.id]
  rcases Nat.lt_or_ge slot node.inputs.length with inside | beyond
  · rw [List.getElem?_append_left inside]
  · rw [List.getElem?_append_right beyond, List.getElem?_eq_none beyond, List.getElem?_replicate]
    by_cases padded :
        slot - node.inputs.length < scheme.slotCount node.kindName - node.inputs.length
    · rw [if_pos padded]
    · rw [if_neg padded]

/-! ### Defaults of the bundled scheme -/

theorem default?_bundled {kind : NodeKind} (same : node.kind = kind) (known : kind ≠ .unknown) :
    bundled.default? node.kindName key =
      (bundled.nodes.lookup kind.name).bind (·.defaults.lookup key) := by
  have named : NodeKind.ofName node.kindName = kind := same
  unfold default? entry?
  rw [named]
  cases kind with
  | unknown => exact absurd rfl known
  | _ => rfl

end Scheme

namespace Node

open Scheme (bundled)

variable {node : Node} {key : String}

theorem kind_complete (node : Node) : (bundled.complete node).kind = node.kind :=
  congrArg NodeKind.ofName (bundled.completes node).kindName

theorem constant_complete (kind : node.kind = .constFloat) :
    (bundled.complete node).constant = node.constant := by
  have held := (bundled.completes node).param? "value"
  rw [Scheme.default?_bundled kind nofun] at held
  unfold constant scalarParam?
  rw [held]
  cases node.param? "value" with
  | none =>
    have zero : (Json.number (.fraction (.zero false))).scalar? = some (.zero false) := by
      decide +kernel
    exact congrArg (fun value => Typed.literal (value.getD (.zero false))) zero
  | some value => rfl

theorem formulaText_complete (kind : node.kind = .expr) :
    (bundled.complete node).formulaText = node.formulaText := by
  have held := (bundled.completes node).param? "expr"
  rw [Scheme.default?_bundled kind nofun] at held
  unfold formulaText textParam?
  rw [held]
  cases node.param? "expr" with
  | none => decide +kernel
  | some value => rfl

theorem finiteParam_complete (kind : node.kind = .circleField) (key : String) (default : F32) :
    (bundled.complete node).finiteParam key default = node.finiteParam key default := by
  have held := (bundled.completes node).param? key
  rw [Scheme.default?_bundled kind nofun] at held
  unfold finiteParam scalarParam?
  rw [held]
  cases node.param? key <;> rfl

theorem compile_complete (node : Node) (inputs : Inputs) (options : Options) :
    ((bundled.complete node).compile inputs options).result =
      (node.compile inputs options).result := by
  unfold compile
  rw [kind_complete]
  cases kind : node.kind with
  | constFloat => rw [constant_complete kind]
  | expr =>
    unfold formula
    rw [formulaText_complete kind, (bundled.completes node).id]
  | circleField =>
    unfold circle
    simp only [finiteParam_complete kind]
  | _ => rfl

end Node

namespace Graph

theorem find?_complete (graph : Graph) (id : String) :
    graph.complete.find? id = (graph.find? id).map Scheme.bundled.complete := by
  have named (node : Node) : (Scheme.bundled.complete node).id = node.id :=
    (Scheme.bundled.completes node).id
  simp only [find?, complete, completeBy, List.find?_map, Function.comp_def, named]

theorem complete_isVariant (graph : Graph) :
    graph.complete.IsVariant graph Scheme.bundled.complete where
  nodes := rfl
  id node := (Scheme.bundled.completes node).id
  injective := Function.injective_id
  feeds node slot := by
    rw [feeder?, feeder?, Scheme.input?_complete]
    cases node.input? slot with
    | none => rfl
    | some id => exact graph.find?_complete id
  slots node := by
    rw [(Scheme.bundled.completes node).inputs, List.length_append]
    exact Nat.le_add_right _ _
  kind := Node.kind_complete
  compile := Node.compile_complete

theorem output?_complete (graph : Graph) :
    graph.complete.output? = graph.output?.map Scheme.bundled.complete := by
  have outputs : graph.complete.nodes.filter (·.kind.isOutput) =
      (graph.nodes.filter (·.kind.isOutput)).map Scheme.bundled.complete := by
    simp only [complete, completeBy, List.filter_map, Function.comp_def, Node.kind_complete]
  rw [output?_eq, output?_eq, outputs]
  apply lastOutput?_map
  intro node
  rw [Scheme.input?_complete]

theorem compile_complete (graph : Graph) (options : Options) :
    (graph.complete.compile options).result = (graph.compile options).result := by
  rw [compile_eq_resultFor, output?_complete, graph.complete_isVariant.resultFor,
    ← compile_eq_resultFor]

theorem complete_complete (graph : Graph) : graph.complete.complete = graph.complete := by
  simp only [complete, completeBy, List.map_map, Function.comp_def, Scheme.complete_complete]

/-- Filling in the defaults of the bundled scheme succeeds for every graph and is idempotent. It
keeps the wires, and the nodes with all that they have, in their places; each node of a known kind
then has the inputs of its kind and a value for each parameter that has a default. What the graph
compiles to stays the same, errors included. -/
theorem compile_normalize (graph : Graph) :
    ∃ normalized, graph.normalize? = some normalized ∧
      normalized.normalize? = some normalized ∧
      (∀ options, (normalized.compile options).result = (graph.compile options).result) ∧
      normalized.wires = graph.wires ∧
      List.Forall₂ Scheme.bundled.Completes normalized.nodes graph.nodes := by
  refine ⟨graph.complete, graph.normalize?_eq, ?_, graph.compile_complete, rfl, ?_⟩
  · rw [normalize?_eq, complete_complete]
  · rw [complete, completeBy, List.forall₂_map_left_iff, List.forall₂_same]
    exact fun node _ => Scheme.bundled.completes node

-- One of the two inputs and the formula are left out.
example : Scheme.bundled.complete ⟨"e", "expr", [some "t"], []⟩ =
    ⟨"e", "expr", [some "t", none], [("expr", .string "0")]⟩ := by
  rfl

end Graph

end NodeShader
