import NodeShader.Proofs.Compile.Fitting
import NodeShader.Proofs.Compile.Strictness
import NodeShader.Proofs.Formula.Arity
import NodeShader.Proofs.Formula.Substitution

/-!
The codes in the slots of a node can be exchanged: what is made of the node's code is the same for
inputs in whose slots it is the same.
-/

namespace NodeShader

variable {A : Type} {f g : Code → A}

namespace Typed

/-- Conversion keeps what codes stand for. -/
theorem Stands.converted (parallel : Code.Parallel f g) {x y : Typed} (stands : x.Stands f g y)
    (target : ValueType) : (x.convert target).Stands f g (y.convert target) where
  type := rfl
  literal := by
    cases target with
    | f32 =>
      have same := stands.literal
      have type := stands.type
      rcases x with ⟨code, source⟩
      rcases y with ⟨code', source'⟩
      dsimp only at type
      subst type
      cases source with
      | f32 => exact same
      | vec2f | vec3f | vec4f => exact (literal?_paren _ _).trans (literal?_paren _ _).symm
    | vec2f | vec3f | vec4f => rfl
  value := stands.convert parallel target

theorem stands_zero (parallel : Code.Parallel f g) (type : ValueType) :
    (zero type).Stands f g (zero type) := by
  have none_filled (function : String) (count : Nat) (type : ValueType) :
      (Typed.mk (.call function (List.replicate count (Code.literal (.zero false)))) type).Stands f g
        ⟨.call function (List.replicate count (Code.literal (.zero false))), type⟩ := by
    refine Formula.stands_call parallel rfl ?_
    rw [List.map_replicate, List.map_replicate, parallel.literal]
  cases type with
  | f32 => exact stands_literal parallel _
  | vec2f | vec3f | vec4f => exact none_filled _ _ _

end Typed

/-- Inputs whose scalars stand for each other, as do the position and the time. -/
structure Inputs.Stand (f g : Code → A) (inputs others : Inputs) : Prop where
  uv : f Node.uvCode.code = g Node.uvCode.code
  time : f Node.timeCode.code = g Node.timeCode.code
  scalar : ∀ slot < 2, ∀ default, (inputs.getOr slot .f32 (.literal default)).Stands f g
    (others.getOr slot .f32 (.literal default))

/-- Codes that stand for each other in all slots. -/
theorem Inputs.stands_getOr (parallel : Code.Parallel f g) {inputs others : Inputs}
    (found : ∀ slot, Option.Rel (Typed.Stands f g) (inputs.find? slot) (others.find? slot))
    (slot : Nat) (type : ValueType) {x y : Typed} (default : x.Stands f g y) :
    (inputs.getOr slot type x).Stands f g (others.getOr slot type y) := by
  have here := found slot
  change (((inputs.find? slot).getD x).convert type).Stands f g
    (((others.find? slot).getD y).convert type)
  cases first : inputs.find? slot <;> cases second : others.find? slot <;>
    rw [first, second] at here <;> cases here
  · exact default.converted parallel type
  · next stands => exact stands.converted parallel type

/-- Contributions of one sort and type that two maps agree on. -/
inductive Emission.Stands (f g : Code → A) : Emission → Emission → Prop
  | value {x y : Typed} (type : x.type = y.type) (code : f x.code = g y.code) :
      Stands f g (.value x) (.value y)
  | color {code code' : Code} (same : f code = g code') : Stands f g (.color code) (.color code')

namespace Node

open Typed

variable {inputs others : Inputs}

theorem stands_environment (stand : inputs.Stand f g others) (slot : Slot) :
    ((environment inputs).get slot).Stands f g ((environment others).get slot) := by
  cases slot with
  | a => exact stand.scalar 0 (by decide) (.zero false)
  | b => exact stand.scalar 1 (by decide) (.zero false)
  | time => exact ⟨rfl, rfl, stand.time⟩
  | uv => exact ⟨rfl, rfl, stand.uv⟩

/-- A formula has code for both inputs or for neither. -/
theorem formula_parallel (parallel : Code.Parallel f g) (stand : inputs.Stand f g others)
    (node : Node) :
    ∃ x y, (node.formula inputs .lenient).result = .ok x ∧
      (node.formula others .lenient).result = .ok y ∧ x.Stands f g y := by
  unfold formula
  cases compiled : Formula.compileScalar (environment inputs) node.formulaText with
  | error error =>
    have failed : ∃ error, Formula.compileScalar (environment others) node.formulaText =
        .error error := by
      rw [Formula.compileScalar_error_iff, environment_type, ← environment_type inputs,
        ← Formula.compileScalar_error_iff]
      exact ⟨error, compiled⟩
    rcases failed with ⟨error', compiled'⟩
    rw [compiled']
    exact ⟨.zero .f32, .zero .f32, rfl, rfl, stands_zero parallel .f32⟩
  | ok value =>
    rcases except_bind_eq_ok.1 compiled with ⟨formula, parsed, lowered⟩
    rcases except_bind_eq_ok.1 lowered with ⟨x, lowered, same⟩
    obtain ⟨y, lowered', stands⟩ := (Formula.kept_stands parallel).lower
      (stands_environment stand) formula (Formula.parse_saturated parsed) lowered
    cases same
    have compiled' : Formula.compileScalar (environment others) node.formulaText =
        .ok (y.convert .f32) :=
      except_bind_eq_ok.2 ⟨formula, parsed, except_bind_eq_ok.2 ⟨y, lowered', rfl⟩⟩
    rw [compiled']
    exact ⟨_, _, rfl, rfl, stands.converted parallel .f32⟩

theorem stands_scalar (parallel : Code.Parallel f g) (stand : inputs.Stand f g others) (slot : Nat)
    (inside : slot < 2) (default : F32) :
    (scalar inputs slot default).Stands f g (scalar others slot default) := by
  have stands := stand.scalar slot inside default
  unfold scalar
  dsimp only
  rw [stands.literal]
  cases (others.getOr slot .f32 (.literal default)).literal? with
  | some number => exact stands_literal parallel number
  | none => exact stands

theorem stands_atLeastMinimal (parallel : Code.Parallel f g) {x y : Typed} (stands : x.Stands f g y) :
    (atLeastMinimal x).Stands f g (atLeastMinimal y) := by
  unfold atLeastMinimal
  rw [stands.literal]
  cases y.literal? with
  | some value => exact stands_literal parallel _
  | none =>
    apply Formula.stands_call parallel rfl
    simp only [List.map_cons, List.map_nil, parallel.literal, stands.value]

theorem folded_parallel (parallel : Code.Parallel f g) (operator : Operator) {x y x' y' : Typed}
    (stands : x.Stands f g y) (stands' : x'.Stands f g y') :
    f (folded operator x x') = g (folded operator y y') := by
  have operation : f (.binary operator x.code x'.code) = g (.binary operator y.code y'.code) :=
    parallel.binary operator stands.value stands'.value
  unfold folded
  rw [stands.literal, stands'.literal]
  cases y.literal? with
  | none => exact operation
  | some value =>
    cases y'.literal? with
    | none => exact operation
    | some value' => exact parallel.literal _

theorem circle_parallel (parallel : Code.Parallel f g) (stand : inputs.Stand f g others)
    (node : Node) : f (node.circle inputs).code = g (node.circle others).code := by
  have radius := stands_scalar parallel stand 0 (by decide)
    (node.finiteParam "radius" (.ofDecimal 25 (-2)))
  have edge := stands_atLeastMinimal parallel (stands_scalar parallel stand 1 (by decide)
    (node.finiteParam "edge" (.ofDecimal 2 (-2))))
  have middle : f (.call "vec2f" [.number 5 (-1), .number 5 (-1)]) =
      g (.call "vec2f" [.number 5 (-1), .number 5 (-1)]) :=
    parallel.call "vec2f" (by simp only [List.map_cons, List.map_nil, Code.number, parallel.literal])
  have distance : f (.call "distance" [uvCode.code, .call "vec2f" [.number 5 (-1), .number 5 (-1)]]) =
      g (.call "distance" [uvCode.code, .call "vec2f" [.number 5 (-1), .number 5 (-1)]]) :=
    parallel.call "distance" (by simp only [List.map_cons, List.map_nil, stand.uv, middle])
  refine parallel.binary .sub (parallel.literal _) (parallel.call "smoothstep" ?_)
  simp only [List.map_cons, List.map_nil, distance, folded_parallel parallel _ radius edge]

/-- A node contributes codes that stand for each other when its inputs do. -/
theorem compile_parallel (parallel : Code.Parallel f g) (stand : inputs.Stand f g others)
    (colors : ∀ slot, f (inputs.get slot .vec3f).code = g (others.get slot .vec3f).code) {node : Node}
    {emission : Emission} (compiled : (node.compile inputs .lenient).result = .ok emission) :
    ∃ emission', (node.compile others .lenient).result = .ok emission' ∧
      emission.Stands f g emission' := by
  have number (digits : Nat) : f (.number digits 0) = g (.number digits 0) := parallel.literal _
  have bound (digits : Nat) :
      f (.call "vec3f" [.number digits 0]) = g (.call "vec3f" [.number digits 0]) :=
    parallel.call "vec3f" (by simp only [List.map_cons, List.map_nil, number])
  cases kind : node.kind <;> simp only [compile, kind] at compiled ⊢
  case expr =>
    obtain ⟨x, y, made, made', stands⟩ := formula_parallel parallel stand node
    rw [Outcome.result_bind, made] at compiled
    cases compiled
    rw [Outcome.result_bind, made']
    exact ⟨_, rfl, .value stands.type stands.value⟩
  all_goals cases compiled
  case uv => exact ⟨_, rfl, .value rfl stand.uv⟩
  case time => exact ⟨_, rfl, .value rfl stand.time⟩
  case constFloat => exact ⟨_, rfl, .value rfl (parallel.literal _)⟩
  case circleField => exact ⟨_, rfl, .value rfl (circle_parallel parallel stand node)⟩
  case multiply => exact ⟨_, rfl, .value rfl (parallel.binary .mul (colors 0) (colors 1))⟩
  case add => exact ⟨_, rfl, .value rfl (parallel.binary .add (colors 0) (colors 1))⟩
  case saturate =>
    refine ⟨_, rfl, .value rfl (parallel.call "clamp" ?_)⟩
    simp only [List.map_cons, List.map_nil, colors, bound]
  case outputFinal => exact ⟨_, rfl, .color (colors 0)⟩
  case unknown => exact ⟨_, rfl, .value rfl (stands_zero parallel .vec3f).value⟩

end Node

end NodeShader
