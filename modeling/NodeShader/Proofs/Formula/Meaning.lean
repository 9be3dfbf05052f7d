import NodeShader.Proofs.Formula.Fitting
import NodeShader.Proofs.Formula.Grammar
import NodeShader.Proofs.Formula.Substitution
import NodeShader.Proofs.Formula.Typing
import NodeShader.Proofs.Wgsl.Quantities
import NodeShader.Proofs.Wgsl.Reading

/-!
What a formula means, computed on its tree, and that the code of a formula means the same. On the
tree, constants are told apart from the values that are only known when the shader runs: what is
computed from constants alone and is not finite counts as zero, and bounds in the wrong order have a
meaning of their own if they are constant.
-/

namespace NodeShader

/-- A constant, or a value that is only known when the shader runs. -/
inductive Operand where
  | constant (value : F32)
  | runtime (value : Quantity)

namespace Operand

def value : Operand → Quantity
  | .constant value => .scalar value
  | .runtime value => value

def constant? : Operand → Option F32
  | .constant value => some value
  | .runtime _ => none

/-- The result of an operation on constants alone; what is not finite counts as zero. -/
def folded (value : F32) : Operand := .constant value.orZero

/-- What stands in a slot: a constant if it is a literal, and else a value known at run time. -/
def ofSlot (x : Typed) (value : Quantity) : Operand :=
  match x.literal? with
  | some number => .constant number
  | none => .runtime value

end Operand

namespace Formula

variable (setting : Setting)

def negated : Operand → Operand
  | .constant value => .folded (-value)
  | .runtime value => .runtime value.negate

def operated (operator : Operator) (x y : Operand) : Operand :=
  match x.constant?, y.constant? with
  | some x, some y => .folded (operator.apply x y)
  | _, _ => .runtime (x.value.operate operator y.value)

/-- What `clamp` and `smoothstep` give between constant bounds in the wrong order: the upper bound,
and a rise the other way round, or a step where the bounds are equal. -/
def misordered? (function : Builtin) (operands : List Operand) : Option Operand :=
  match function, operands with
  | .clamp, [x, low, high] => do
    let lowValue ← low.constant?
    let highValue ← high.constant?
    if highValue.lt lowValue then
      some (if x.value.isScalar then .constant highValue else .runtime (.pair highValue highValue))
    else none
  | .smoothstep, [low, high, x] => do
    let lowValue ← low.constant?
    let highValue ← high.constant?
    if lowValue.same highValue then
      some (.runtime (Builtin.step.compute setting [.scalar lowValue, x.value]))
    else if highValue.lt lowValue then
      let rising := Builtin.smoothstep.compute setting
        [.scalar highValue, .scalar lowValue, x.value]
      some (.runtime ((Quantity.scalar .one).operate .sub rising))
    else none
  | _, _ => none

def called (function : Builtin) (operands : List Operand) : Operand :=
  match operands.mapM Operand.constant? with
  | some values => .folded (function.apply values)
  | none => (misordered? setting function operands).getD
      (.runtime (function.compute setting (operands.map Operand.value)))

mutual

/-- The value of a formula, given what stands in its slots; none when a scalar is swizzled. -/
def operand? (slots : Slot → Operand) : Formula → Option Operand
  | .number value => some (.folded value)
  | .pi => some (.constant .pi)
  | .slot name => some (slots name)
  | .negate formula => do return negated (← operand? slots formula)
  | .binary operator left right => do
    return operated operator (← operand? slots left) (← operand? slots right)
  | .call function arguments => do return called setting function (← operands? slots arguments)
  | .swizzle vector components => do
    return .runtime (← (← operand? slots vector).value.select components)

def operands? (slots : Slot → Operand) : List Formula → Option (List Operand)
  | [] => some []
  | formula :: rest => do return (← operand? slots formula) :: (← operands? slots rest)

end

end Formula

variable {setting : Setting} {scope : String → Option Quantity}

namespace Typed

/-- Code of a value and of its type. -/
structure Computes (setting : Setting) (scope : String → Option Quantity) (x : Typed)
    (value : Quantity) : Prop where
  type : x.type = value.type
  value : x.code.eval (.quantities setting) scope = some value

/-- Code of the value and type of an operand; it is a literal if the operand is constant. -/
structure Means (setting : Setting) (scope : String → Option Quantity) (x : Typed)
    (operand : Operand) : Prop where
  fits : x.Fits
  type : x.type = operand.value.type
  constant : x.literal? = operand.constant?
  value : x.code.eval (.quantities setting) scope = some operand.value

variable {x y : Typed} {operand operand' : Operand}

theorem literal?_closed (fits : x.code.Fits) (closed : x.code.IsClosed) : x.literal? = none := by
  obtain ⟨code, type⟩ := x
  cases code with
  | literal => cases closed
  | name text => exact literal?_name fits type
  | paren inner => exact literal?_paren inner type
  | negate => cases closed
  | binary => cases closed
  | call function arguments => exact literal?_call function arguments type
  | member inner components =>
    unfold literal?
    split <;> rfl

theorem means_runtime {value : Quantity} (fits : x.Fits) (closed : x.code.IsClosed)
    (type : x.type = value.type) (same : x.code.eval (.quantities setting) scope = some value) :
    x.Means setting scope (.runtime value) :=
  ⟨fits, type, literal?_closed fits.1 closed, same⟩

theorem means_literal (value : F32) : (literal value).Means setting scope (.folded value) where
  fits := fits_literal value
  type := rfl
  constant := rfl
  value := (Code.eval_literal value).trans (Domain.quantities_number value)

theorem means_constant {value : F32} (finite : value.isFinite = true) :
    (literal value).Means setting scope (.constant value) := by
  have means : (literal value).Means setting scope (.folded value) := means_literal value
  rwa [Operand.folded, F32.orZero_of_isFinite finite] at means

/-- A slot stands for its operand. -/
theorem means_slot {value : Quantity} (fits : x.Fits) (type : x.type = value.type)
    (same : x.code.eval (.quantities setting) scope = some value) :
    x.Means setting scope (.ofSlot x value) := by
  rcases fits.2 with closed | ⟨number, rfl⟩
  · have unknown := literal?_closed fits.1 closed
    rw [Operand.ofSlot, unknown]
    exact means_runtime fits closed type same
  · exact means_literal number

theorem Computes.narrow {value : Quantity} (computes : x.Computes setting scope value) :
    x.type = .f32 ∨ x.type = .vec2f := by
  rw [computes.type]
  exact value.type_narrow

namespace Means

theorem computes (means : x.Means setting scope operand) : x.Computes setting scope operand.value :=
  ⟨means.type, means.value⟩

theorem narrow (means : x.Means setting scope operand) : x.type = .f32 ∨ x.type = .vec2f :=
  means.computes.narrow

theorem isFinite {value : F32} (means : x.Means setting scope (.constant value)) :
    value.isFinite = true := isFinite_of_literal? means.constant

theorem convert (means : x.Means setting scope operand) {target : ValueType}
    (narrow : target = .f32 ∨ target = .vec2f) (wide : target = .f32 → x.type = .f32) :
    (x.convert target).code.eval (.quantities setting) scope =
      some (operand.value.spread target) := by
  rw [eval_convert, means.value, Option.bind_some, means.type]
  apply Domain.quantities_convert _ narrow
  intro scalar
  rw [← Quantity.type_eq_f32_iff, ← means.type]
  exact wide scalar

end Means

end Typed

namespace Formula

open Typed

variable {xs : List Typed} {operands : List Operand} {x y : Typed} {operand operand' : Operand}

theorem means_lowerNegate (means : x.Means setting scope operand) :
    (lowerNegate x).Means setting scope (negated operand) := by
  have fits := fits_lowerNegate means.fits
  unfold lowerNegate at fits ⊢
  rw [means.constant] at fits ⊢
  cases operand with
  | constant value => exact means_literal (-value)
  | runtime value =>
    have negated : (Code.paren (.negate x.code)).eval (.quantities setting) scope =
        some value.negate := by
      rw [Code.eval_paren, Code.eval_negate, means.value]
      rfl
    exact means_runtime fits trivial (means.type.trans value.type_negate.symm) negated

theorem eval_operation (operator : Operator) (means : x.Means setting scope operand)
    (means' : y.Means setting scope operand') :
    (Code.binary operator x.code y.code).eval (.quantities setting) scope =
      some (operand.value.operate operator operand'.value) := by
  rw [Code.eval_binary, means.value, means'.value]
  rfl

theorem means_lowerBinary (operator : Operator) (means : x.Means setting scope operand)
    (means' : y.Means setting scope operand') :
    (lowerBinary operator x y).Means setting scope (operated operator operand operand') := by
  have fits : (lowerBinary operator x y).Fits := fits_lowerBinary means.fits means'.fits
  have operation (open_fits : (Typed.mk (.paren (.binary operator x.code y.code))
      (ValueType.widest [x.type, y.type])).Fits) :
      (Typed.mk (.paren (.binary operator x.code y.code))
        (ValueType.widest [x.type, y.type])).Means setting scope
        (.runtime (operand.value.operate operator operand'.value)) := by
    apply means_runtime open_fits trivial _ (eval_operation operator means means')
    rw [Quantity.type_operate, means.type, means'.type]
  unfold lowerBinary at fits ⊢
  unfold operated
  rw [means.constant, means'.constant] at fits ⊢
  cases known : operand.constant? with
  | none =>
    rw [known] at fits
    exact operation fits
  | some value =>
    cases known' : operand'.constant? with
    | none =>
      rw [known, known'] at fits
      exact operation fits
    | some value' => exact means_literal _

/-! ### Calls -/

theorem constants_eq (related : List.Forall₂ (Means setting scope) xs operands) :
    xs.mapM literal? = operands.mapM Operand.constant? := by
  induction related with
  | nil => rfl
  | cons first _ ih => rw [List.mapM_cons, List.mapM_cons, first.constant, ih]

theorem types_of_means (related : List.Forall₂ (Means setting scope) xs operands) :
    xs.map (·.type) = (operands.map Operand.value).map Quantity.type := by
  induction related with
  | nil => rfl
  | cons first _ ih => rw [List.map_cons, List.map_cons, List.map_cons, first.type, ih]

theorem fits_of_means (related : List.Forall₂ (Means setting scope) xs operands) :
    ∀ x ∈ xs, x.Fits := by
  induction related with
  | nil => simp
  | cons first _ ih => exact List.forall_mem_cons.2 ⟨first.fits, ih⟩

/-- Arguments brought to one type have the values of the operands in that type. -/
theorem eval_arguments (related : List.Forall₂ (Means setting scope) xs operands)
    {target : ValueType} (narrow : target = .f32 ∨ target = .vec2f)
    (wide : target = .f32 → ∀ x ∈ xs, x.type = .f32) :
    (xs.map fun x => (x.convert target).code).mapM (Code.eval (.quantities setting) scope) =
      some ((operands.map Operand.value).map (·.spread target)) := by
  induction related with
  | nil => rfl
  | cons first _ ih =>
    have rest := ih fun scalar x member => wide scalar x (List.mem_cons_of_mem _ member)
    rw [List.map_cons, List.mapM_cons, rest,
      first.convert narrow fun scalar => wide scalar _ List.mem_cons_self]
    rfl

theorem eval_splat_quantity {value : F32} (finite : value.isFinite = true) {type : ValueType}
    (narrow : type = .f32 ∨ type = .vec2f) :
    (splat value type).eval (.quantities setting) scope =
      some ((Quantity.scalar value).spread type) := by
  have literal : (literal value).Means setting scope (.constant value) := means_constant finite
  exact literal.convert narrow fun _ => rfl

theorem eval_function (function : Builtin) {codes : List Code} {values : List Quantity}
    (arity : values.length = function.arity)
    (proper : ¬ (function = .dot ∧ values.all Quantity.isScalar = true))
    (known : codes.mapM (Code.eval (.quantities setting) scope) =
      some (values.map (·.spread (ValueType.widest (values.map Quantity.type))))) :
    (Code.call function.name codes).eval (.quantities setting) scope =
      some (function.compute setting values) := by
  rw [Code.eval_call, known]
  exact Domain.quantities_call arity proper

theorem means_splat {value : F32} (finite : value.isFinite = true)
    (means : x.Means setting scope operand) :
    (Typed.mk (splat value x.type) x.type).Means setting scope
      (if operand.value.isScalar then .constant value else .runtime (.pair value value)) := by
  have type := means.type
  have splat_value : (splat value x.type).eval (.quantities setting) scope =
      some ((Quantity.scalar value).spread x.type) := eval_splat_quantity finite means.narrow
  cases known : operand.value with
  | scalar number =>
    rw [known] at type
    rw [type]
    exact means_constant finite
  | pair first second =>
    rw [known] at type
    rw [type] at splat_value ⊢
    exact means_runtime ((fits_literal value).convert .vec2f) trivial rfl splat_value

/-- Between scalar bounds a function has the type of what is bounded. -/
theorem type_bounded (setting : Setting) (function : Builtin) (vector : function.yieldsScalar = false)
    (bounds : List F32) (x : Quantity) :
    (function.compute setting (bounds.map .scalar ++ [x])).type = x.type := by
  rw [Builtin.type_compute, vector, Quantity.widest_types, List.all_append, List.all_map]
  have scalars : bounds.all (Quantity.isScalar ∘ .scalar) = true := List.all_eq_true.2 fun _ _ => rfl
  rw [scalars]
  cases x <;> rfl

section

variable {value : Quantity} (computes : x.Computes setting scope value)

include computes

theorem eval_step {edge : F32} (finite : edge.isFinite = true) :
    (Code.call "step" [splat edge x.type, x.code]).eval (.quantities setting) scope =
      some (Builtin.step.compute setting [.scalar edge, value]) := by
  apply eval_function .step rfl nofun
  rw [List.mapM_cons, List.mapM_cons, eval_splat_quantity finite computes.narrow, computes.value,
    computes.type]
  cases value <;> rfl

theorem eval_smoothstep {low high : F32} (finite : low.isFinite = true)
    (finite' : high.isFinite = true) :
    (Code.call "smoothstep" [splat high x.type, splat low x.type, x.code]).eval
        (.quantities setting) scope =
      some (Builtin.smoothstep.compute setting [.scalar high, .scalar low, value]) := by
  apply eval_function .smoothstep rfl nofun
  rw [List.mapM_cons, List.mapM_cons, List.mapM_cons, eval_splat_quantity finite computes.narrow,
    eval_splat_quantity finite' computes.narrow, computes.value, computes.type]
  cases value <;> rfl

/-- A fall between two edges is the rise the other way round, taken from one. -/
theorem eval_falling {low high : F32} (finite : low.isFinite = true)
    (finite' : high.isFinite = true) :
    (Code.paren (.binary .sub (splat .one x.type) (.call "smoothstep"
        [splat high x.type, splat low x.type, x.code]))).eval (.quantities setting) scope =
      some ((Quantity.scalar .one).operate .sub (Builtin.smoothstep.compute setting
        [.scalar high, .scalar low, value])) := by
  have type := type_bounded setting .smoothstep rfl [high, low] value
  rw [Code.eval_paren, Code.eval_binary, eval_splat_quantity isFinite_one computes.narrow,
    eval_smoothstep computes finite finite', computes.type, ← type]
  exact congrArg some (Quantity.operate_spread .sub .one _)

end

theorem type_falling (low high : F32) (x : Quantity) :
    ((Quantity.scalar .one).operate .sub (Builtin.smoothstep.compute setting
      [.scalar high, .scalar low, x])).type = x.type := by
  have type := type_bounded setting .smoothstep rfl [high, low] x
  change (Builtin.smoothstep.compute setting [.scalar high, .scalar low, x]).type = x.type at type
  rw [Quantity.type_operate, type]
  cases x <;> rfl

theorem means_lowerMisordered? (function : Builtin)
    (related : List.Forall₂ (Means setting scope) xs operands) :
    lowerMisordered? function xs = none ∧ misordered? setting function operands = none ∨
      ∃ x operand, lowerMisordered? function xs = some x ∧
        misordered? setting function operands = some operand ∧ x.Means setting scope operand := by
  have fits {x : Typed} : lowerMisordered? function xs = some x → x.Fits :=
    fits_lowerMisordered? (fits_of_means related)
  unfold lowerMisordered? at fits ⊢
  split
  · next x low high =>
    obtain ⟨operand, low', high', rfl, first, second, third⟩ := forall₂_three related
    dsimp only [misordered?] at fits ⊢
    rw [← second.constant, ← third.constant]
    cases low.literal? with
    | none => exact .inl ⟨rfl, rfl⟩
    | some lowValue =>
      cases known : high.literal? with
      | none => exact .inl ⟨rfl, rfl⟩
      | some highValue =>
        by_cases less : highValue.lt lowValue = true
        · exact .inr ⟨_, _, if_pos less, if_pos less,
            means_splat (isFinite_of_literal? known) first⟩
        · exact .inl ⟨if_neg less, if_neg less⟩
  · next low high x =>
    obtain ⟨low', high', operand, rfl, first, second, third⟩ := forall₂_three related
    dsimp only [misordered?] at fits ⊢
    rw [← first.constant, ← second.constant]
    cases known : low.literal? with
    | none => exact .inl ⟨rfl, rfl⟩
    | some lowValue =>
      cases known' : high.literal? with
      | none => exact .inl ⟨rfl, rfl⟩
      | some highValue =>
        have finite := isFinite_of_literal? known
        have finite' := isFinite_of_literal? known'
        rw [known, known'] at fits
        by_cases same : lowValue.same highValue = true
        · refine .inr ⟨_, _, if_pos same, if_pos same, ?_⟩
          apply means_runtime (fits (if_pos same)) trivial _ (eval_step third.computes finite)
          exact third.type.trans (type_bounded setting .step rfl [_] _).symm
        · by_cases less : highValue.lt lowValue = true
          · refine .inr ⟨_, _, (if_neg same).trans (if_pos less),
              (if_neg same).trans (if_pos less), ?_⟩
            exact means_runtime (fits ((if_neg same).trans (if_pos less))) trivial
              (third.type.trans (type_falling _ _ _).symm) (eval_falling third.computes finite finite')
          · exact .inl ⟨(if_neg same).trans (if_neg less), (if_neg same).trans (if_neg less)⟩
  · next no_clamp no_smoothstep =>
    refine .inl ⟨rfl, ?_⟩
    unfold misordered?
    split
    · obtain ⟨x, low, high, rfl, -⟩ := forall₂_three related.flip
      exact (no_clamp x low high rfl rfl).elim
    · obtain ⟨low, high, x, rfl, -⟩ := forall₂_three related.flip
      exact (no_smoothstep low high x rfl rfl).elim
    · rfl

theorem scalars_of_widest (related : List.Forall₂ (Means setting scope) xs operands)
    (scalar : ValueType.widest (xs.map (·.type)) = .f32) : ∀ x ∈ xs, x.type = .f32 := by
  rw [types_of_means related, Quantity.widest_types] at scalar
  have all : (operands.map Operand.value).all Quantity.isScalar = true := by
    by_contra pairs
    rw [if_neg pairs] at scalar
    cases scalar
  rw [List.all_map] at all
  clear scalar
  induction related with
  | nil => simp
  | cons first _ ih =>
    rw [List.all_cons, Bool.and_eq_true] at all
    refine List.forall_mem_cons.2 ⟨?_, ih all.2⟩
    rw [first.type]
    exact Quantity.type_eq_f32_iff.2 all.1

theorem means_lowerPlainCall (function : Builtin) (arity : xs.length = function.arity)
    (related : List.Forall₂ (Means setting scope) xs operands) :
    (lowerPlainCall function xs).Means setting scope
      (.runtime (function.compute setting (operands.map Operand.value))) := by
  have fits := fits_lowerPlainCall function (fits_of_means related)
  have types := types_of_means related
  have narrow : ValueType.widest (xs.map (·.type)) = .f32 ∨
      ValueType.widest (xs.map (·.type)) = .vec2f := by
    rw [types, Quantity.widest_types]
    exact ite_eq_or_eq _ _ _
  have type : (lowerPlainCall function xs).type =
      (function.compute setting (operands.map Operand.value)).type := by
    rw [lowerPlainCall_type, Builtin.type_compute, types]
  rcases lowerPlainCall_cases function xs rfl with ⟨x, y, rfl, rfl, scalar, same⟩ | ⟨proper, same⟩
  · have scalars := scalars_of_widest related scalar
    rw [same] at fits type ⊢
    obtain ⟨operand, rest, first, one, rfl⟩ := List.forall₂_cons_left_iff.1 related
    obtain ⟨operand', rest, second, done, rfl⟩ := List.forall₂_cons_left_iff.1 one
    cases done
    apply means_runtime fits trivial type
    rw [Code.eval_paren, Code.eval_binary, first.convert (.inl rfl) fun _ => scalars x (by simp),
      second.convert (.inl rfl) fun _ => scalars y (by simp)]
    have left := Quantity.type_eq_f32_iff.1 (first.type.symm.trans (scalars x (by simp)))
    have right := Quantity.type_eq_f32_iff.1 (second.type.symm.trans (scalars y (by simp)))
    change some (operand.value.operate .mul operand'.value) =
      some (Builtin.dot.compute setting [operand.value, operand'.value])
    cases value : operand.value with
    | pair =>
      rw [value] at left
      cases left
    | scalar number =>
      cases value' : operand'.value with
      | pair =>
        rw [value'] at right
        cases right
      | scalar number' => rfl
  · rw [same] at fits type ⊢
    apply means_runtime fits trivial type
    have known := eval_arguments related narrow (scalars_of_widest related)
    rw [types] at known ⊢
    apply eval_function function _ _ known
    · rw [List.length_map, ← related.length_eq, arity]
    · intro given
      obtain ⟨rfl, scalars⟩ := given
      apply proper
      refine ⟨rfl, ?_, arity⟩
      rw [types, Quantity.widest_types, if_pos scalars]

theorem means_lowerCall (function : Builtin) (arity : xs.length = function.arity)
    (related : List.Forall₂ (Means setting scope) xs operands) :
    (lowerCall function xs).Means setting scope (called setting function operands) := by
  unfold lowerCall called
  rw [constants_eq related]
  cases operands.mapM Operand.constant? with
  | some values => exact means_literal _
  | none =>
    rcases means_lowerMisordered? function related with
      ⟨recast, recast'⟩ | ⟨x, operand, recast, recast', means⟩
    · rw [recast, recast']
      exact means_lowerPlainCall function arity related
    · rw [recast, recast']
      exact means

theorem means_lowerSwizzle (components : Swizzle) (means : x.Means setting scope operand)
    (selected : lowerSwizzle x components = .ok y) :
    ∃ value, operand.value.select components = some value ∧
      y.Means setting scope (.runtime value) := by
  have fits := fits_lowerSwizzle means.fits selected
  unfold lowerSwizzle at selected
  split at selected
  · cases selected
  · next vector =>
    cases selected
    rw [means.type] at vector
    have eval : (x.code.select components.text).eval (.quantities setting) scope =
        operand.value.select components := by
      rw [Code.eval_select, means.value]
      change (Swizzle.ofWord? components.text.toList).bind operand.value.select = _
      rw [ofWord?_text]
      rfl
    have closed := Code.closed_select x.code components.text
    cases value : operand.value with
    | scalar =>
      rw [value] at vector
      exact absurd rfl vector
    | pair first second =>
      rw [value] at eval
      cases components with
      | one component => exact ⟨_, rfl, means_runtime fits closed rfl eval⟩
      | two component component' => exact ⟨_, rfl, means_runtime fits closed rfl eval⟩

mutual

/-- The code of a formula means what the formula does, if the codes in its slots stand for what is
in them. -/
theorem means_lower {environment : Environment} {slots : Slot → Operand}
    (stand : ∀ slot, (environment.get slot).Means setting scope (slots slot)) :
    (formula : Formula) → formula.Saturated → ∀ {x}, lower environment formula = .ok x →
      ∃ operand, formula.operand? setting slots = some operand ∧ x.Means setting scope operand
  | .number value, _, _, lowered => by
    cases lowered
    exact ⟨_, rfl, means_literal value⟩
  | .pi, _, _, lowered => by
    cases lowered
    exact ⟨_, rfl, means_constant isFinite_pi⟩
  | .slot name, _, _, lowered => by
    cases lowered
    exact ⟨_, rfl, stand name⟩
  | .negate formula, saturated, _, lowered => by
    obtain ⟨x, inner, same⟩ := except_bind_eq_ok.1 lowered
    obtain ⟨operand, known, means⟩ := means_lower stand formula saturated inner
    cases same
    exact ⟨_, by rw [operand?, known]; rfl, means_lowerNegate means⟩
  | .binary operator left right, ⟨saturated, saturated'⟩, _, lowered => by
    obtain ⟨x, first, rest⟩ := except_bind_eq_ok.1 lowered
    obtain ⟨y, second, same⟩ := except_bind_eq_ok.1 rest
    obtain ⟨operand, known, means⟩ := means_lower stand left saturated first
    obtain ⟨operand', known', means'⟩ := means_lower stand right saturated' second
    cases same
    exact ⟨_, by rw [operand?, known, known']; rfl, means_lowerBinary operator means means'⟩
  | .call function arguments, ⟨arity, saturated⟩, _, lowered => by
    obtain ⟨xs, inner, same⟩ := except_bind_eq_ok.1 lowered
    obtain ⟨operands, known, related, length⟩ := means_lowerAll stand arguments saturated inner
    cases same
    exact ⟨_, by rw [operand?, known]; rfl, means_lowerCall function (length.trans arity) related⟩
  | .swizzle vector components, saturated, _, lowered => by
    obtain ⟨x, inner, selected⟩ := except_bind_eq_ok.1 lowered
    obtain ⟨operand, known, means⟩ := means_lower stand vector saturated inner
    obtain ⟨value, picked, means'⟩ := means_lowerSwizzle components means selected
    refine ⟨.runtime value, ?_, means'⟩
    rw [operand?, known]
    change (operand.value.select components).bind _ = _
    rw [picked]
    rfl

theorem means_lowerAll {environment : Environment} {slots : Slot → Operand}
    (stand : ∀ slot, (environment.get slot).Means setting scope (slots slot)) :
    (formulas : List Formula) → AllSaturated formulas → ∀ {xs},
      lowerAll environment formulas = .ok xs →
      ∃ operands, operands? setting slots formulas = some operands ∧
        List.Forall₂ (Means setting scope) xs operands ∧ xs.length = formulas.length
  | [], _, _, lowered => by
    cases lowered
    exact ⟨[], rfl, .nil, rfl⟩
  | formula :: rest, ⟨saturated, saturated'⟩, _, lowered => by
    obtain ⟨x, first, others⟩ := except_bind_eq_ok.1 lowered
    obtain ⟨xs, second, same⟩ := except_bind_eq_ok.1 others
    obtain ⟨operand, known, means⟩ := means_lower stand formula saturated first
    obtain ⟨operands, known', related, length⟩ := means_lowerAll stand rest saturated' second
    cases same
    exact ⟨operand :: operands, by rw [operands?, known, known']; rfl, .cons means related,
      congrArg Nat.succ length⟩

end

end Formula

/-- Codes in the slots that may stand as operands, and the values that they have when the shader
runs. -/
structure Environment.Holds (setting : Setting) (scope : String → Option Quantity)
    (environment : Environment) (values : Slot → Quantity) : Prop where
  fits : ∀ slot, (environment.get slot).Fits
  type : ∀ slot, (environment.get slot).type = (values slot).type
  value : ∀ slot, (environment.get slot).code.eval (.quantities setting) scope = some (values slot)

/-- What stands in the slots: a literal is a constant. -/
def Environment.operands (environment : Environment) (values : Slot → Quantity) (slot : Slot) :
    Operand :=
  .ofSlot (environment.get slot) (values slot)

namespace Formula

/-- What is read from the text of a formula's code has the value that the formula has. -/
theorem eval_lower {environment : Environment} {values : Slot → Quantity} {text : String}
    {formula : Formula} {x : Typed} (holds : environment.Holds setting scope values)
    (parsed : parse text = .ok formula) (lowered : lower environment formula = .ok x) :
    ∃ expression operand, Expression.read? x.text = some expression ∧
      formula.operand? setting (environment.operands values) = some operand ∧
      expression.eval (.quantities setting) scope = some operand.value ∧
      x.type = operand.value.type := by
  have stand (slot : Slot) :
      (environment.get slot).Means setting scope (environment.operands values slot) :=
    Typed.means_slot (holds.fits slot) (holds.type slot) (holds.value slot)
  obtain ⟨operand, known, means⟩ := means_lower stand formula (parse_saturated parsed) lowered
  exact ⟨_, operand, Expression.read?_render means.fits.1, known, means.value, means.type⟩

/-- Nothing is wired to the first input. -/
def halfWired : Environment where
  a := .literal (.zero false)
  b := ⟨.name "n_b", .f32⟩
  time := ⟨.name "u_time", .f32⟩
  uv := ⟨.name "uv", .vec2f⟩

def halfWiredScope : String → Option Quantity
  | "n_b" | "u_time" => some (.scalar .one)
  | "uv" => some (.pair .one (.zero false))
  | _ => none

def halfWiredValues : Slot → Quantity
  | .a => .scalar (.zero false)
  | .b | .time => .scalar .one
  | .uv => .pair .one (.zero false)

/-- Pairs are measured by their first components. -/
def halfWiredSetting : Setting where
  position := (.one, .zero false)
  time := .one
  measure function pairs := function.apply (pairs.map Prod.fst)

theorem halfWired_holds : halfWired.Holds halfWiredSetting halfWiredScope halfWiredValues where
  fits
    | .a => Typed.fits_literal _
    | .b | .time | .uv => Typed.fits_name (by decide) _
  type slot := by cases slot <;> rfl
  value
    | .a => (Code.eval_literal _).trans (Domain.quantities_number _)
    | .b | .time | .uv => rfl

/-- Edges in the wrong order, a quotient by a constant zero, and a pair with a scalar. -/
def fall : String := "smoothstep(1, a, uv) / b + 1 / a"

theorem eval_fall : ∃ formula x expression operand,
    parse fall = .ok formula ∧ lower halfWired formula = .ok x ∧
      Expression.read? x.text = some expression ∧
      formula.operand? halfWiredSetting (halfWired.operands halfWiredValues) = some operand ∧
      expression.eval (.quantities halfWiredSetting) halfWiredScope = some operand.value := by
  obtain ⟨formula, x, parsed, lowered⟩ : ∃ formula x, parse fall = .ok formula ∧
      lower halfWired formula = .ok x := exists_lowered (by decide +kernel)
  obtain ⟨expression, operand, read, known, value, -⟩ := eval_lower halfWired_holds parsed lowered
  exact ⟨formula, x, expression, operand, parsed, lowered, read, known, value⟩

end Formula

end NodeShader
