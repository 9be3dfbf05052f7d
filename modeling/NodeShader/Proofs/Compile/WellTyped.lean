import NodeShader.Proofs.Compile.Running
import NodeShader.Proofs.Formula.WellTyped
import NodeShader.Proofs.Wgsl.Scope

/-!
Every fragment body is well typed: over types the value of a node is the type of its kind.
-/

namespace NodeShader

/-- The type of what a node of a kind contributes; an output contributes a color. -/
def NodeKind.type (kind : NodeKind) : ValueType := kind.outputType?.getD .vec3f

/-- Sources whose values are their types, which have constructors here. -/
def SlotsTyped (slots : SlotValues ValueType) : Prop := ∀ slot type value,
  slots slot = some (type, value) → value = some type ∧ type ≠ .vec4f

namespace Node

variable {slots : SlotValues ValueType}

theorem types_input (typed : SlotsTyped slots) (slot : Nat) {type : ValueType}
    (narrow : type ≠ .vec4f) : Domain.types.input slots slot type = some type := by
  unfold Domain.input
  split
  · next source value here =>
    rcases typed slot source value here with ⟨rfl, narrow'⟩
    exact Domain.types_convert narrow' narrow
  · exact Domain.types_zero narrow

/-- A name in the place of an input has the type of scalars. -/
theorem isTyped_getOr (typed : SlotsTyped slots) {slot : Nat} {name : String}
    (here : slot = 0 ∧ name = "a" ∨ slot = 1 ∧ name = "b") (default : F32) :
    ((Inputs.named slots).getOr slot .f32 (.literal default)).IsTyped
      (Domain.types.slotScope slots) := by
  change ((((Inputs.named slots).find? slot).getD (.literal default)).convert .f32).IsTyped _
  rw [Inputs.named_find? slots slot name here]
  cases slots slot with
  | none => exact Typed.isTyped_literal default
  | some source =>
    have input := types_input typed slot (show ValueType.f32 ≠ .vec4f from nofun)
    rcases here with ⟨rfl, rfl⟩ | ⟨rfl, rfl⟩ <;> exact input

theorem isFormula_environment (typed : SlotsTyped slots) (slot : Slot) :
    ((environment (.named slots)).get slot).IsFormula (Domain.types.slotScope slots) := by
  cases slot with
  | a => exact ⟨isTyped_getOr typed (.inl ⟨rfl, rfl⟩) (.zero false), .inl rfl⟩
  | b => exact ⟨isTyped_getOr typed (.inr ⟨rfl, rfl⟩) (.zero false), .inl rfl⟩
  | time => exact ⟨rfl, .inl rfl⟩
  | uv => exact ⟨rfl, .inr rfl⟩

theorem isTyped_formula (typed : SlotsTyped slots) {node : Node} {value : Typed}
    (made : (node.formula (.named slots) .lenient).result = .ok value) :
    value.IsTyped (Domain.types.slotScope slots) := by
  rcases formula_cases made with compiled | rfl
  · exact Formula.isTyped_compileScalar (isFormula_environment typed) compiled
  · exact Typed.isTyped_zero nofun

/-- A scalar of the type it is tagged with. -/
def IsScalar (scope : String → Option ValueType) (x : Typed) : Prop :=
  x.code.eval .types scope = some .f32

theorem isScalar_literal (scope : String → Option ValueType) (value : F32) :
    IsScalar scope (.literal value) :=
  Typed.isTyped_literal value

theorem isScalar_scalar (typed : SlotsTyped slots) {slot : Nat} {name : String}
    (here : slot = 0 ∧ name = "a" ∨ slot = 1 ∧ name = "b") (default : F32) :
    IsScalar (Domain.types.slotScope slots) (scalar (.named slots) slot default) := by
  unfold scalar
  dsimp only
  split
  · exact isScalar_literal _ _
  · exact isTyped_getOr typed here default

variable {scope : String → Option ValueType} {x y : Typed}

theorem isScalar_atLeastMinimal (scalar : IsScalar scope x) : IsScalar scope (atLeastMinimal x) := by
  unfold atLeastMinimal
  split
  · exact isScalar_literal scope _
  · apply Formula.eval_builtin .max rfl (show ValueType.f32 ≠ .vec4f from nofun) nofun
    intro code member
    rcases List.mem_pair.1 member with rfl | rfl
    · exact scalar
    · exact isScalar_literal scope minimalEdge

theorem types_folded (operator : Operator) (scalar : IsScalar scope x) (scalar' : IsScalar scope y) :
    (folded operator x y).eval .types scope = some .f32 := by
  unfold folded
  split
  · exact isScalar_literal scope _
  · rw [Code.eval_binary, scalar, scalar']
    rfl

theorem types_circle (typed : SlotsTyped slots) (node : Node) :
    (node.circle (.named slots)).code.eval .types (Domain.types.slotScope slots) = some .f32 := by
  have radius := isScalar_scalar typed (.inl ⟨rfl, rfl⟩)
    (node.finiteParam "radius" (.ofDecimal 25 (-2)))
  have edge := isScalar_atLeastMinimal (isScalar_scalar typed (.inr ⟨rfl, rfl⟩)
    (node.finiteParam "edge" (.ofDecimal 2 (-2))))
  have position : uvCode.code.eval .types (Domain.types.slotScope slots) = some .vec2f := rfl
  have middle : (Code.call "vec2f" [.number 5 (-1), .number 5 (-1)]).eval .types
      (Domain.types.slotScope slots) = some .vec2f := by
    simp only [Code.eval_call, List.mapM_cons, List.mapM_nil, Code.eval_number, Domain.types_number]
    rfl
  have distance : (Code.call "distance" [uvCode.code,
      .call "vec2f" [.number 5 (-1), .number 5 (-1)]]).eval .types (Domain.types.slotScope slots) =
      some .f32 := by
    apply Formula.eval_builtin .distance rfl (show ValueType.vec2f ≠ .vec4f from nofun) nofun
    intro code member
    rcases List.mem_pair.1 member with rfl | rfl
    · exact position
    · exact middle
  have rise : (Code.call "smoothstep" [
      folded .sub (scalar (.named slots) 0 (node.finiteParam "radius" (.ofDecimal 25 (-2))))
        (atLeastMinimal (scalar (.named slots) 1 (node.finiteParam "edge" (.ofDecimal 2 (-2))))),
      folded .add (scalar (.named slots) 0 (node.finiteParam "radius" (.ofDecimal 25 (-2))))
        (atLeastMinimal (scalar (.named slots) 1 (node.finiteParam "edge" (.ofDecimal 2 (-2))))),
      .call "distance" [uvCode.code, .call "vec2f" [.number 5 (-1), .number 5 (-1)]]]).eval .types
      (Domain.types.slotScope slots) = some .f32 := by
    apply Formula.eval_builtin .smoothstep rfl (show ValueType.f32 ≠ .vec4f from nofun) nofun
    simp only [List.mem_cons, List.not_mem_nil, or_false, forall_eq_or_imp, forall_eq]
    exact ⟨types_folded .sub radius edge, types_folded .add radius edge, distance⟩
  unfold circle
  rw [Code.eval_binary, Code.eval_number, Domain.types_number, Option.bind_some, rise]
  rfl

/-- The code that is written for the names of a node's inputs is a scalar. -/
theorem types_written (typed : SlotsTyped slots) {node : Node} (written : node.IsWritten)
    {emission : Emission}
    (compiled : (node.compile (.named slots) .lenient).result = .ok emission) :
    emission.code.eval .types (Domain.types.slotScope slots) = some .f32 := by
  rcases written with kind | kind <;> simp only [compile, kind] at compiled
  · rw [Outcome.result_bind] at compiled
    rcases except_bind_eq_ok.1 compiled with ⟨value, made, same⟩
    cases same
    have scalar := isTyped_formula typed made
    rwa [Typed.IsTyped, formula_type made] at scalar
  · cases compiled
    exact types_circle typed node

/-- Over types, the value of a node is the type of its kind. -/
theorem types_meaning? (typed : SlotsTyped slots) (node : Node) :
    node.meaning? .types slots = some node.kind.type := by
  have color := types_input typed 0 (show ValueType.vec3f ≠ .vec4f from nofun)
  have color' := types_input typed 1 (show ValueType.vec3f ≠ .vec4f from nofun)
  rcases exists_compile_lenient node (.named slots) with ⟨emission, compiled⟩
  cases kind : node.kind
  case expr =>
    rw [meaning?_written (.inl kind) compiled]
    exact types_written typed (.inl kind) compiled
  case circleField =>
    rw [meaning?_written (.inr kind) compiled]
    exact types_written typed (.inr kind) compiled
  all_goals
    unfold meaning?
    rw [kind]
  case uv | time => rfl
  case constFloat => exact Domain.types_number _
  case multiply | add =>
    dsimp only
    rw [color, color']
    rfl
  case saturate =>
    dsimp only
    rw [color, Domain.types_number, Domain.types_number]
    rfl
  case outputFinal => exact color
  case unknown => exact Domain.types_zero nofun

end Node

namespace Graph

variable {graph : Graph} {options : Options}

theorem types_values? (graph : Graph) (output : Node) :
    ∃ values, graph.values? .types (graph.orderFor output) = some values ∧
      ∀ node ∈ (graph.orderFor output).nodes, ∃ type, values node.id = some type ∧
        type = node.kind.type := by
  refine values?_of_each (graph.orderFor_sound output) (fun node type => type = node.kind.type)
    fun node slots sources => ?_
  have typed : SlotsTyped slots := by
    intro slot type value here
    rcases sources slot type value here with ⟨source, result, kind, known, same⟩
    have type_eq : source.kind.type = type := by rw [NodeKind.type, kind]; rfl
    exact ⟨by rw [known, same, type_eq], NodeKind.outputType?_narrow kind⟩
  exact ⟨_, Node.types_meaning? typed node, rfl⟩

/-- Over types every fragment body runs. -/
theorem compile_runs_typed {statements : List Statement}
    (compiled : (graph.compile options).result = .ok (.body statements)) :
    ∃ output store, graph.output? = some output ∧
      (Store.start .types).runAll .types statements = some store ∧
      List.Forall₂ Statement.BelongsTo ((graph.orderFor output).emitting output) statements := by
  rcases compile_body compiled with ⟨output, draft, selected, drafted, rfl⟩
  rcases graph.types_values? output with ⟨values, evaluated, known⟩
  have suit (node : Node) (member : node ∈ (graph.orderFor output).nodes) :
      Draft.Suit .types values node := by
    rcases known node member with ⟨type, value, same⟩
    intro result value'
    rw [value] at value'
    cases value'
    exact decide_eq_true same.symm
  rcases runAll_of_drafts drafted evaluated suit with ⟨store, ran, stands, -⟩
  exact ⟨output, store, selected, ran, stands.imp fun _ _ => And.left⟩

/-- Every fragment body is well scoped and well typed, and each of its names has the type of its
node's kind. -/
theorem compile_well_typed {statements : List Statement}
    (compiled : (graph.compile options).result = .ok (.body statements)) :
    ∃ output, graph.output? = some output ∧
      List.Forall₂ Statement.BelongsTo ((graph.orderFor output).emitting output) statements ∧
      Statement.AreTyped statements := by
  rcases compile_runs_typed compiled with ⟨output, store, selected, ran, stands⟩
  exact ⟨output, selected, stands, Statement.areTyped_of_runAll ran⟩

theorem loop_well_typed : ∃ statements, (loop.compile .lenient).result = .ok (.body statements) ∧
    Statement.AreTyped statements := by
  rcases loop_body with ⟨statements, compiled, -⟩
  rcases compile_well_typed compiled with ⟨-, -, -, typed⟩
  exact ⟨statements, compiled, typed⟩

end Graph

end NodeShader
