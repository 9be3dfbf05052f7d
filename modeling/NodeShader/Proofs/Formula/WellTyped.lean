import NodeShader.Proofs.Formula.Arity
import NodeShader.Proofs.Formula.Typing
import NodeShader.Proofs.Wgsl.Types

/-!
The code of a formula has the type it is tagged with, under the rules of the shading language.
-/

namespace NodeShader

namespace Typed

variable {scope : String → Option ValueType} {x y : Typed}

/-- Code whose type is the one it is tagged with. -/
def IsTyped (scope : String → Option ValueType) (x : Typed) : Prop :=
  x.code.eval .types scope = some x.type

theorem isTyped_literal (value : F32) : (literal value).IsTyped scope := by
  rw [IsTyped, literal, Code.eval_literal, Domain.types_number]

theorem isTyped_zero {type : ValueType} (narrow : type ≠ .vec4f) : (zero type).IsTyped scope := by
  calc
    _ = Domain.types.zero type := eval_zero type
    _ = some type := Domain.types_zero narrow
    _ = some (zero type).type := by rw [zero_type]

theorem IsTyped.convert (typed : x.IsTyped scope) (narrow : x.type ≠ .vec4f) {target : ValueType}
    (narrow' : target ≠ .vec4f) : (x.convert target).IsTyped scope := by
  calc
    _ = (x.code.eval .types scope).bind (Domain.types.convert x.type target) := eval_convert x target
    _ = Domain.types.convert x.type target x.type := by rw [typed, Option.bind_some]
    _ = some target := Domain.types_convert narrow narrow'
    _ = some (x.convert target).type := by rw [convert_type]

/-- Code of a formula: it has its type, which is a scalar or a pair. -/
def IsFormula (scope : String → Option ValueType) (x : Typed) : Prop :=
  x.IsTyped scope ∧ (x.type = .f32 ∨ x.type = .vec2f)

theorem IsFormula.narrow (formula : x.IsFormula scope) : x.type ≠ .vec4f := by
  rcases formula.2 with type | type <;> rw [type] <;> exact nofun

end Typed

namespace Formula

variable {scope : String → Option ValueType}

theorem widest_formulas {xs : List Typed} (formulas : ∀ x ∈ xs, x.IsFormula scope) :
    ValueType.widest (xs.map (·.type)) = .f32 ∨ ValueType.widest (xs.map (·.type)) = .vec2f :=
  widest_narrow (by simpa using fun x member => (formulas x member).2)

theorem operated?_widest {s t : ValueType} (narrow : s = .f32 ∨ s = .vec2f)
    (narrow' : t = .f32 ∨ t = .vec2f) : s.operated? t = some (ValueType.widest [s, t]) := by
  rcases narrow with rfl | rfl <;> rcases narrow' with rfl | rfl <;> rfl

theorem formula_literal (value : F32) : (Typed.literal value).IsFormula scope :=
  ⟨Typed.isTyped_literal value, .inl rfl⟩

theorem formula_lowerNegate {x : Typed} (formula : x.IsFormula scope) :
    (lowerNegate x).IsFormula scope := by
  unfold lowerNegate
  split
  · exact formula_literal _
  · refine ⟨?_, formula.2⟩
    rw [Typed.IsTyped, Code.eval_paren, Code.eval_negate, formula.1]
    rfl

theorem formula_lowerBinary (operator : Operator) {x y : Typed} (formula : x.IsFormula scope)
    (formula' : y.IsFormula scope) : (lowerBinary operator x y).IsFormula scope := by
  have type := lowerBinary_type operator x y
  constructor
  · rw [Typed.IsTyped, type]
    unfold lowerBinary
    split
    · next known known' =>
      rw [Typed.type_of_literal? known, Typed.type_of_literal? known']
      exact Typed.isTyped_literal _
    · rw [Code.eval_paren, Code.eval_binary, formula.1, formula'.1]
      exact operated?_widest formula.2 formula'.2
  · rw [type]
    have both : ∀ z ∈ [x, y], z.IsFormula scope := by simp [formula, formula']
    exact widest_formulas both

theorem isTyped_splat (value : F32) {type : ValueType} (narrow : type ≠ .vec4f) :
    (splat value type).eval .types scope = some type :=
  (Typed.isTyped_literal value).convert nofun narrow

theorem eval_all {codes : List Code} {type : ValueType}
    (typed : ∀ code ∈ codes, code.eval .types scope = some type) :
    codes.mapM (Code.eval .types scope) = some (List.replicate codes.length type) := by
  induction codes with
  | nil => rfl
  | cons code codes ih =>
    rw [List.mapM_cons, typed code List.mem_cons_self,
      ih fun other member => typed other (List.mem_cons_of_mem _ member)]
    rfl

/-- A call has its type when all its arguments have one type. -/
theorem eval_builtin (function : Builtin) {codes : List Code} {type : ValueType}
    (arity : codes.length = function.arity) (narrow : type ≠ .vec4f)
    (proper : ¬ (function = .dot ∧ type = .f32))
    (typed : ∀ code ∈ codes, code.eval .types scope = some type) :
    (Code.call function.name codes).eval .types scope =
      some (if function.yieldsScalar then .f32 else type) := by
  calc
    _ = (codes.mapM (Code.eval .types scope)).bind (Domain.types.call function.name) :=
      Code.eval_call function.name codes
    _ = Domain.types.call function.name (List.replicate function.arity type) := by
      rw [eval_all typed, arity, Option.bind_some]
    _ = _ := Domain.types_call narrow proper

theorem isTyped_lowerMisordered? {function : Builtin} {xs : List Typed} {x : Typed}
    (formulas : ∀ x ∈ xs, x.IsFormula scope) (recast : lowerMisordered? function xs = some x) :
    x.IsTyped scope := by
  have splats (value : F32) {y : Typed} (member : y ∈ xs) :
      (splat value y.type).eval .types scope = some y.type :=
    isTyped_splat value (formulas y member).narrow
  cases recast_of_lowerMisordered? recast with
  | @clamp y _ _ _ highValue => exact splats highValue (by simp)
  | @step _ _ y lowValue =>
    have typed : y.code.eval .types scope = some y.type := (formulas y (by simp)).1
    exact eval_builtin .step rfl (formulas y (by simp)).narrow nofun (by simp [splats, typed])
  | @falling _ _ y lowValue highValue =>
    have typed : y.code.eval .types scope = some y.type := (formulas y (by simp)).1
    have rising : (Code.call "smoothstep" [splat highValue y.type, splat lowValue y.type,
        y.code]).eval .types scope = some y.type :=
      eval_builtin .smoothstep rfl (formulas y (by simp)).narrow nofun (by simp [splats, typed])
    rw [Typed.IsTyped, Code.eval_paren, Code.eval_binary, splats .one (by simp), rising]
    exact if_pos (by simp)

theorem isTyped_lowerPlainCall (function : Builtin) {xs : List Typed}
    (arity : xs.length = function.arity) (formulas : ∀ x ∈ xs, x.IsFormula scope) :
    (lowerPlainCall function xs).IsTyped scope := by
  have narrow : ValueType.widest (xs.map (·.type)) ≠ .vec4f := by
    rcases widest_formulas formulas with type | type <;> rw [type] <;> exact nofun
  have converted (x : Typed) (member : x ∈ xs) (type : ValueType) (narrow : type ≠ .vec4f) :
      (x.convert type).code.eval .types scope = some type :=
    (formulas x member).1.convert (formulas x member).narrow narrow
  rcases lowerPlainCall_cases function xs rfl with ⟨x, y, rfl, rfl, -, same⟩ | ⟨proper, same⟩
  · rw [same, Typed.IsTyped, Code.eval_paren, Code.eval_binary, converted x (by simp) .f32 nofun,
      converted y (by simp) .f32 nofun]
    rfl
  · rw [same]
    refine eval_builtin function (by rw [List.length_map, arity]) narrow ?_ fun code member => ?_
    · intro both
      rcases both with ⟨rfl, scalar⟩
      exact proper ⟨rfl, scalar, arity⟩
    · rcases List.mem_map.1 member with ⟨x, given, rfl⟩
      exact converted x given _ narrow

theorem formula_lowerCall (function : Builtin) {xs : List Typed}
    (arity : xs.length = function.arity) (formulas : ∀ x ∈ xs, x.IsFormula scope) :
    (lowerCall function xs).IsFormula scope := by
  constructor
  · unfold lowerCall
    split
    · exact Typed.isTyped_literal _
    · cases recast : lowerMisordered? function xs with
      | none => exact isTyped_lowerPlainCall function arity formulas
      | some x => exact isTyped_lowerMisordered? formulas recast
  · rw [lowerCall_type]
    split
    · exact .inl rfl
    · exact widest_formulas formulas

theorem types_swizzle (components : Swizzle) :
    Domain.types.select .vec2f components.text = some components.type := by
  cases components with
  | one first => cases first <;> decide
  | two first second => cases first <;> cases second <;> decide

theorem formula_lowerSwizzle (components : Swizzle) {x y : Typed} (formula : x.IsFormula scope)
    (selected : lowerSwizzle x components = .ok y) : y.IsFormula scope := by
  unfold lowerSwizzle at selected
  split at selected
  · cases selected
  · next vector =>
    cases selected
    have type := formula.2.resolve_left vector
    have typed : x.code.eval .types scope = some .vec2f := by rw [formula.1, type]
    constructor
    · rw [Typed.IsTyped, Code.eval_select, typed]
      exact types_swizzle components
    · cases components
      · exact .inl rfl
      · exact .inr rfl

/-- The code of a formula has its type if the codes in its slots have theirs. -/
theorem kept_formula (scope : String → Option ValueType) :
    Kept fun x y => x = y ∧ x.IsFormula scope :=
  .alone formula_literal formula_lowerNegate formula_lowerBinary formula_lowerCall
    formula_lowerSwizzle

theorem isTyped_compileScalar {environment : Environment} {text : String} {x : Typed}
    (slots : ∀ slot, (environment.get slot).IsFormula scope)
    (compiled : compileScalar environment text = .ok x) : x.IsTyped scope := by
  rcases except_bind_eq_ok.1 compiled with ⟨formula, parsed, compiled⟩
  rcases except_bind_eq_ok.1 compiled with ⟨y, lowered, same⟩
  cases same
  have typed := (kept_formula scope).holds slots (parse_saturated parsed) lowered
  exact typed.1.convert typed.narrow nofun

end Formula

end NodeShader
