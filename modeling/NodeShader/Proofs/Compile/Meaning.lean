import NodeShader.Proofs.Compile.Substitution

/-!
What a node computes from the values in its slots, and that the code it contributes has this value
wherever its inputs have theirs.
-/

namespace NodeShader

/-- What stands in the slots of a node: the type of the source, and its value if that is known. -/
abbrev SlotValues (V : Type) := Nat → Option (ValueType × Option V)

namespace Domain

variable {V : Type} (domain : Domain V)

/-- The value in a slot as a type, or the zero of the type when there is none. -/
def input (slots : SlotValues V) (slot : Nat) (type : ValueType) : Option V :=
  match slots slot with
  | some (source, value) => value.bind (domain.convert source type)
  | none => domain.zero type

/-- What the names in the code of a single node stand for: the scalars in its two slots, the
position and the time. -/
def slotScope (slots : SlotValues V) (name : String) : Option V :=
  if name = "a" then domain.input slots 0 .f32
  else if name = "b" then domain.input slots 1 .f32
  else (Store.start domain).names name

end Domain

/-- Inputs whose wired slots hold scalars of the names `a` and `b`. -/
def Inputs.named {V : Type} (slots : SlotValues V) : Inputs where
  slots := [some "a", some "b"]
  bindings :=
    let scalar (slot : Nat) (name : String) :=
      ((slots slot).map fun _ => (name, Typed.mk (.name name) .f32)).toList
    ⟨scalar 0 "a" ++ scalar 1 "b"⟩

/-- The value of a node, given what stands in its slots. A formula and a circle mean what the code
written for them means with names in the place of their inputs. -/
def Node.meaning? {V : Type} (domain : Domain V) (node : Node) (slots : SlotValues V) : Option V :=
  match node.kind with
  | .uv => some domain.uv
  | .time => some domain.time
  | .constFloat => domain.number ((node.scalarParam? "value").getD (.zero false))
  | .multiply => do
    domain.operate .mul (← domain.input slots 0 .vec3f) (← domain.input slots 1 .vec3f)
  | .add => do
    domain.operate .add (← domain.input slots 0 .vec3f) (← domain.input slots 1 .vec3f)
  | .saturate => do
    let color ← domain.input slots 0 .vec3f
    let low ← domain.call "vec3f" [← domain.number (.ofDecimal 0 0)]
    let high ← domain.call "vec3f" [← domain.number (.ofDecimal 1 0)]
    domain.call "clamp" [color, low, high]
  | .outputFinal => domain.input slots 0 .vec3f
  | .unknown => domain.zero .vec3f
  | .expr | .circleField => do
    let emission ← (node.compile (.named slots) .lenient).result.toOption
    (← Expression.read? emission.code.render).eval domain (domain.slotScope slots)

namespace Inputs

variable {V : Type} {domain : Domain V} {scope : String → Option V} {inputs : Inputs}
  {slots : SlotValues V}

/-- The position, the time and the inputs have their values in a scope. -/
structure Hold (domain : Domain V) (scope : String → Option V) (inputs : Inputs)
    (slots : SlotValues V) : Prop where
  uv : scope "uv" = some domain.uv
  time : scope "u_time" = some domain.time
  empty : ∀ slot, slots slot = none → inputs.find? slot = none
  wired : ∀ slot type value, slots slot = some (type, value) → ∃ identifier,
    inputs.find? slot = some ⟨.name identifier, type⟩ ∧ Identifiers.IsProper identifier ∧
      scope identifier = value

theorem Hold.fit (hold : inputs.Hold domain scope slots) : inputs.Fit := by
  intro slot x found
  cases source : slots slot with
  | none =>
    rw [hold.empty slot source] at found
    cases found
  | some source' =>
    rcases hold.wired slot _ _ source with ⟨identifier, wired, proper, -⟩
    rw [wired] at found
    cases found
    exact Typed.fits_name proper.isName _

/-- What is read from a slot has the value that the slot gives. -/
theorem Hold.eval_get (hold : inputs.Hold domain scope slots) (slot : Nat) (type : ValueType) :
    (inputs.get slot type).code.eval domain scope = domain.input slots slot type := by
  change ((((inputs.find? slot).getD (.zero type)).convert type).code.eval domain scope) = _
  unfold Domain.input
  cases source : slots slot with
  | none =>
    rw [hold.empty slot source, Option.getD_none, Typed.eval_convert, Typed.eval_zero, Typed.zero_type]
    cases type <;> exact Option.bind_fun_some _
  | some source' =>
    rcases hold.wired slot _ _ source with ⟨identifier, wired, -, value⟩
    calc
      _ = ((Typed.mk (.name identifier) source'.1).convert type).code.eval domain scope := by
        rw [wired, Option.getD_some]
      _ = (scope identifier).bind (domain.convert source'.1 type) := by
        rw [Typed.eval_convert, Code.eval_name]
      _ = source'.2.bind (domain.convert source'.1 type) := by rw [value]

theorem named_find? (slots : SlotValues V) (slot : Nat) (name : String)
    (here : slot = 0 ∧ name = "a" ∨ slot = 1 ∧ name = "b") :
    (named slots).find? slot = (slots slot).map fun _ => ⟨.name name, .f32⟩ := by
  rcases here with ⟨rfl, rfl⟩ | ⟨rfl, rfl⟩ <;>
    cases first : slots 0 <;> cases second : slots 1 <;>
      simp [find?, named, slot?, Bindings.find?, first, second, List.lookup_cons]

theorem named_find?_of_le (slots : SlotValues V) {slot : Nat} (more : 2 ≤ slot) :
    (named slots).find? slot = none := by
  have outside : (named slots).slots[slot]? = none := List.getElem?_eq_none more
  rw [find?, slot?, outside]
  rfl

theorem fit_named (slots : SlotValues V) : (named slots).Fit := by
  intro slot x found
  match slot with
  | 0 =>
    rw [named_find? slots 0 "a" (.inl ⟨rfl, rfl⟩), Option.map_eq_some_iff] at found
    rcases found with ⟨-, -, rfl⟩
    exact Typed.fits_name (by decide) .f32
  | 1 =>
    rw [named_find? slots 1 "b" (.inr ⟨rfl, rfl⟩), Option.map_eq_some_iff] at found
    rcases found with ⟨-, -, rfl⟩
    exact Typed.fits_name (by decide) .f32
  | slot + 2 =>
    rw [named_find?_of_le slots (by omega)] at found
    cases found

end Inputs

namespace Node

open Typed

variable {V : Type} {domain : Domain V} {scope : String → Option V} {inputs : Inputs}
  {slots : SlotValues V}

/-- A name read from a slot is no literal, and neither is what it is converted to. -/
theorem literal?_convert_name {text : String} (name : Lexeme.isName text = true) (type : ValueType) :
    ((Typed.mk (.name text) type).convert .f32).literal? = none := by
  cases type with
  | f32 => exact literal?_name name .f32
  | vec2f | vec3f | vec4f => exact literal?_paren _ .f32

/-- A scalar read from a slot and the name that is put in its place. -/
theorem standsFor_getOr (hold : inputs.Hold domain scope slots) {slot : Nat} {name : String}
    (here : slot = 0 ∧ name = "a" ∨ slot = 1 ∧ name = "b") (default : F32) :
    (inputs.getOr slot .f32 (.literal default)).StandsFor domain scope (domain.slotScope slots)
      ((Inputs.named slots).getOr slot .f32 (.literal default)) := by
  have named := Inputs.named_find? slots slot name here
  change ((((inputs.find? slot).getD (.literal default)).convert .f32).StandsFor domain scope
    (domain.slotScope slots)
    ((((Inputs.named slots).find? slot).getD (.literal default)).convert .f32))
  cases source : slots slot with
  | none =>
    rw [named, source, hold.empty slot source]
    exact standsFor_literal default
  | some source' =>
    rcases hold.wired slot _ _ source with ⟨identifier, wired, proper, value⟩
    have inside : domain.slotScope slots name = source'.2.bind (domain.convert source'.1 .f32) := by
      have input : domain.input slots slot .f32 = source'.2.bind (domain.convert source'.1 .f32) := by
        rw [Domain.input, source]
      rcases here with ⟨rfl, rfl⟩ | ⟨rfl, rfl⟩ <;> exact input
    have isName : Lexeme.isName name = true := by
      rcases here with ⟨-, rfl⟩ | ⟨-, rfl⟩ <;> decide
    rw [named, source, wired]
    refine ⟨rfl, ?_, ?_⟩
    · rw [Option.getD_some, literal?_convert_name proper.isName]
      exact (literal?_convert_name isName .f32).symm
    · rw [Option.getD_some, eval_convert, Code.eval_name, value, ← inside]
      rfl

/-- The inputs of a node and the names that are put in their place. -/
theorem stand_named (hold : inputs.Hold domain scope slots) :
    inputs.Stand (Code.eval domain scope) (Code.eval domain (domain.slotScope slots))
      (.named slots) where
  uv := hold.uv
  time := hold.time
  scalar slot inside default := by
    match slot with
    | 0 => exact standsFor_getOr hold (.inl ⟨rfl, rfl⟩) default
    | 1 => exact standsFor_getOr hold (.inr ⟨rfl, rfl⟩) default
    | slot + 2 => omega

/-- Kinds whose values are those of the code written for them. -/
def IsWritten (node : Node) : Prop := node.kind = .expr ∨ node.kind = .circleField

theorem meaning?_written {node : Node} (written : node.IsWritten) {emission : Emission}
    (compiled : (node.compile (.named slots) .lenient).result = .ok emission) :
    node.meaning? domain slots = emission.code.eval domain (domain.slotScope slots) := by
  have read := Expression.read?_render (fits_compile (Inputs.fit_named slots) compiled)
  unfold meaning?
  rcases written with kind | kind <;> rw [kind, compiled] <;>
    exact (congrArg (Option.bind · (Expression.eval domain (domain.slotScope slots))) read)

theorem exists_compile_lenient (node : Node) (inputs : Inputs) :
    ∃ emission, (node.compile inputs .lenient).result = .ok emission := by
  cases compiled : (node.compile inputs .lenient).result with
  | ok emission => exact ⟨emission, rfl⟩
  | error error => cases (compile_error_iff.1 ⟨error, compiled⟩).1

/-- The code of a node has the node's value wherever its inputs have theirs. -/
theorem eval_compile (hold : inputs.Hold domain scope slots) {node : Node} {options : Options}
    {emission : Emission} (compiled : (node.compile inputs options).result = .ok emission) :
    emission.code.eval domain scope = node.meaning? domain slots := by
  have compiled := compile_lenient compiled
  have get := hold.eval_get
  have parallel := Code.parallel_eval domain scope (domain.slotScope slots)
  cases kind : node.kind <;> simp only [compile, kind] at compiled
  case expr =>
    obtain ⟨value, value', made, made', stands⟩ := formula_parallel parallel (stand_named hold) node
    rw [Outcome.result_bind, made] at compiled
    cases compiled
    have compiled' : (node.compile (.named slots) .lenient).result = .ok (.value value') := by
      simp only [compile, kind]
      rw [Outcome.result_bind, made']
      rfl
    rw [meaning?_written (.inl kind) compiled']
    exact stands.value
  all_goals cases compiled
  case circleField =>
    have compiled' : (node.compile (.named slots) .lenient).result =
        .ok (.value (node.circle (.named slots))) := by
      simp only [compile, kind]
      rfl
    rw [meaning?_written (.inr kind) compiled']
    exact circle_parallel parallel (stand_named hold) node
  all_goals
    unfold meaning?
    rw [kind]
  case uv => exact hold.uv
  case time => exact hold.time
  case constFloat => exact Code.eval_literal _
  case multiply | add =>
    change (componentwise _ inputs).code.eval domain scope = _
    rw [componentwise, Code.eval_binary, get, get]
    rfl
  case saturate =>
    change (saturated inputs).code.eval domain scope = _
    rw [saturated]
    simp only [Code.eval_call, List.mapM_cons, List.mapM_nil, Code.eval_number, get,
      Option.bind_eq_bind, Option.pure_def, Option.bind_assoc, Option.bind_some]
  case outputFinal => exact get 0 .vec3f
  case unknown => exact eval_zero .vec3f

end Node

end NodeShader
