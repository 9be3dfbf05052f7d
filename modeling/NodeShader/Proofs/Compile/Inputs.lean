import Mathlib.Tactic.ByContra
import NodeShader.Compile.Node
import NodeShader.Proofs.Compile.Outcome
import NodeShader.Proofs.Graph.Order

/-!
The node whose value a slot reads, and the reasons for which a slot reads none. What a node
contributes depends on nothing but the values in its slots.
-/

namespace NodeShader

namespace Graph

/-- Why a slot has no value to read. -/
inductive Absent (graph : Graph) (order : Order) (node : Node) (slot : Nat) : Prop where
  | unwired (h : node.inputs[slot]?.join = none)
  | empty (h : node.inputs[slot]? = some (some ""))
  | own (h : node.inputs[slot]? = some (some node.id))
  | dangling {id : String} (wired : node.inputs[slot]? = some (some id))
      (missing : graph.find? id = none)
  | cut (h : order.isCut node.id slot = true)
  | output {id : String} {target : Node} (wired : node.inputs[slot]? = some (some id))
      (found : graph.find? id = some target) (sink : target.kind.isOutput = true)

/-- The node whose value a slot reads: the one that feeds it, unless the wire is cut or the node is
an output. -/
def source? (graph : Graph) (order : Order) (node : Node) (slot : Nat) : Option Node :=
  if order.isCut node.id slot then none
  else (graph.feeder? node slot).filter fun target => !target.kind.isOutput

variable {graph : Graph} {order : Order} {node target : Node} {slot : Nat}

theorem source?_eq_some_iff :
    graph.source? order node slot = some target ↔
      order.isCut node.id slot = false ∧ graph.feeder? node slot = some target ∧
        target.kind.isOutput = false := by
  unfold source?
  cases order.isCut node.id slot <;> simp [Option.filter_eq_some_iff]

theorem source?_eq_none_iff :
    graph.source? order node slot = none ↔ graph.Absent order node slot := by
  constructor
  · intro nothing
    by_contra present
    have uncut : order.isCut node.id slot = false := by
      by_contra cut
      exact present (.cut (by simpa using cut))
    cases wired : node.inputs[slot]?.join with
    | none => exact present (.unwired wired)
    | some id =>
      rw [Option.join_eq_some_iff] at wired
      have input : node.input? slot = some id := by
        refine input?_eq_some_iff.2 ⟨wired, ?_, ?_⟩
        · intro same
          subst same
          exact present (.empty wired)
        · intro same
          subst same
          exact present (.own wired)
      cases found : graph.find? id with
      | none => exact present (.dangling wired found)
      | some target =>
        have value : target.kind.isOutput = false := by
          by_contra sink
          exact present (.output wired found (by simpa using sink))
        have feeds : graph.feeder? node slot = some target := by
          rw [feeder?, input]
          exact found
        rw [source?_eq_some_iff.2 ⟨uncut, feeds, value⟩] at nothing
        cases nothing
  · intro absent
    by_contra present
    rcases Option.ne_none_iff_exists'.1 present with ⟨target, read⟩
    rcases source?_eq_some_iff.1 read with ⟨uncut, feeds, value⟩
    rcases Option.bind_eq_some_iff.1 feeds with ⟨id, input, found⟩
    rcases input?_eq_some_iff.1 input with ⟨wired, proper, other⟩
    cases absent with
    | unwired h => simp [wired] at h
    | empty h => simp_all
    | own h => simp_all
    | dangling wired' missing => simp_all
    | cut h => simp_all
    | output wired' found' sink => simp_all

end Graph

/-- The id in a slot of a listed node: what the slot is wired to, unless the wire is cut. -/
theorem Inputs.slot?_slots (order : Order) (node : Node) (bindings : Bindings) (slot : Nat) :
    (Inputs.mk (order.slots node) bindings).slot? slot =
      if order.isCut node.id slot then none else node.input? slot := by
  simp only [slot?, Order.slots, Node.slots, List.getElem?_map]
  rcases Nat.lt_or_ge slot node.inputs.length with inside | outside
  · simp [List.getElem?_range inside]
  · have none_wired : node.input? slot = none := by
      rw [Node.input?, List.getElem?_eq_none outside]
    rw [List.getElem?_eq_none (by simpa using outside), none_wired]
    simp

/-- The value that stands in a slot. -/
def Inputs.find? (inputs : Inputs) (slot : Nat) : Option Typed :=
  inputs.bindings.find? (inputs.slot? slot)

namespace Node

variable {inputs others : Inputs}

theorem get_congr (same : ∀ slot, inputs.find? slot = others.find? slot) (slot : Nat)
    (type : ValueType) : inputs.get slot type = others.get slot type := by
  have := same slot
  simp only [Inputs.find?] at this
  simp only [Inputs.get, Bindings.get, Bindings.getOr, this]

theorem getOr_congr (same : ∀ slot, inputs.find? slot = others.find? slot) (slot : Nat)
    (type : ValueType) (default : Typed) :
    inputs.getOr slot type default = others.getOr slot type default := by
  have := same slot
  simp only [Inputs.find?] at this
  simp only [Inputs.getOr, Bindings.getOr, this]

/-- What a node contributes depends on the values in its slots alone. -/
theorem compile_congr (same : ∀ slot, inputs.find? slot = others.find? slot) (node : Node)
    (options : Options) : node.compile inputs options = node.compile others options := by
  have get := get_congr same
  have getOr := getOr_congr same
  simp only [compile, formula, environment, circle, scalar, componentwise, saturated, get, getOr]

/-- Outputs contribute a color. -/
theorem compile_output {node : Node} (output : node.kind.isOutput = true) (inputs : Inputs)
    (options : Options) :
    (node.compile inputs options).result = .ok (.color (inputs.get 0 .vec3f).code) := by
  have kind : node.kind = .outputFinal := by simpa [NodeKind.isOutput] using output
  simp [compile, kind]

theorem compileScalar_type {environment : Environment} {text : String} {value : Typed}
    (compiled : Formula.compileScalar environment text = .ok value) : value.type = .f32 := by
  rcases except_bind_eq_ok.1 compiled with ⟨formula, _, lowered⟩
  rcases except_bind_eq_ok.1 lowered with ⟨typed, _, same⟩
  cases same
  rfl

/-- A formula is what its text compiles to, or else a zero. -/
theorem formula_cases {node : Node} {options : Options} {value : Typed}
    (made : (node.formula inputs options).result = .ok value) :
    Formula.compileScalar (environment inputs) node.formulaText = .ok value ∨
      value = .zero .f32 := by
  unfold formula at made
  split at made
  · next compiled =>
    cases made
    exact .inl compiled
  · split at made <;> cases made
    exact .inr rfl

theorem formula_type {node : Node} {options : Options} {value : Typed}
    (made : (node.formula inputs options).result = .ok value) : value.type = .f32 := by
  rcases formula_cases made with compiled | rfl
  · exact compileScalar_type compiled
  · rfl

/-- All other nodes contribute a value of their kind's type. -/
theorem compile_value {node : Node} (proper : node.kind.isOutput = false) {inputs : Inputs}
    {options : Options} {emission : Emission}
    (compiled : (node.compile inputs options).result = .ok emission) :
    ∃ value, emission = .value value ∧ node.kind.outputType? = some value.type := by
  cases kind : node.kind <;> simp only [compile, kind] at compiled
  case outputFinal => simp [kind, NodeKind.isOutput] at proper
  case expr =>
    rw [Outcome.result_bind] at compiled
    rcases except_bind_eq_ok.1 compiled with ⟨value, made, same⟩
    cases same
    exact ⟨value, rfl, by rw [formula_type made]; rfl⟩
  all_goals
    cases compiled
    exact ⟨_, rfl, rfl⟩

theorem isOutput_of_color {node : Node} {options : Options} {code : Code}
    (compiled : (node.compile inputs options).result = .ok (.color code)) :
    node.kind.isOutput = true := by
  by_contra proper
  rcases compile_value (Bool.eq_false_iff.2 proper) compiled with ⟨value, same, -⟩
  cases same

theorem outputType?_of_value {node : Node} {options : Options} {value : Typed}
    (compiled : (node.compile inputs options).result = .ok (.value value)) :
    node.kind.outputType? = some value.type := by
  cases sink : node.kind.isOutput with
  | true =>
    rw [compile_output sink] at compiled
    cases compiled
  | false =>
    rcases compile_value sink compiled with ⟨_, same, type⟩
    cases same
    exact type

end Node

end NodeShader
