import Mathlib.Data.List.Forall2
import NodeShader.Formula.Lowering
import NodeShader.Proofs.Compile.Outcome

/-!
What holds of all lowered code: whatever the steps of lowering keep, the whole keeps.
-/

namespace NodeShader

namespace Formula

mutual

/-- Formulas that call each function with as many arguments as it takes. -/
def Saturated : Formula → Prop
  | .number _ | .pi | .slot _ => True
  | .negate operand => Saturated operand
  | .binary _ left right => Saturated left ∧ Saturated right
  | .call function arguments => arguments.length = function.arity ∧ AllSaturated arguments
  | .swizzle vector _ => Saturated vector

def AllSaturated : List Formula → Prop
  | [] => True
  | argument :: rest => Saturated argument ∧ AllSaturated rest

end

/-- All that a call with bounds in the wrong order may be lowered to. -/
inductive Recast : Builtin → List Typed → Typed → Prop where
  | clamp {x low high : Typed} {lowValue highValue : F32} (known : low.literal? = some lowValue)
      (known' : high.literal? = some highValue) (less : highValue.lt lowValue = true) :
      Recast .clamp [x, low, high] ⟨splat highValue x.type, x.type⟩
  | step {low high x : Typed} {lowValue highValue : F32} (known : low.literal? = some lowValue)
      (known' : high.literal? = some highValue) (same : lowValue.same highValue = true) :
      Recast .smoothstep [low, high, x] ⟨.call "step" [splat lowValue x.type, x.code], x.type⟩
  | falling {low high x : Typed} {lowValue highValue : F32} (known : low.literal? = some lowValue)
      (known' : high.literal? = some highValue) (less : highValue.lt lowValue = true) :
      Recast .smoothstep [low, high, x] ⟨.paren (.binary .sub (splat .one x.type)
        (.call "smoothstep" [splat highValue x.type, splat lowValue x.type, x.code])), x.type⟩

theorem recast_of_lowerMisordered? {function : Builtin} {arguments : List Typed} {x : Typed}
    (recast : lowerMisordered? function arguments = some x) : Recast function arguments x := by
  unfold lowerMisordered? at recast
  split at recast
  · simp only [Option.bind_eq_bind, Option.bind_eq_some_iff] at recast
    rcases recast with ⟨lowValue, known, highValue, known', recast⟩
    split at recast
    · next less =>
      cases recast
      exact .clamp known known' less
    · cases recast
  · simp only [Option.bind_eq_bind, Option.bind_eq_some_iff] at recast
    rcases recast with ⟨lowValue, known, highValue, known', recast⟩
    split at recast
    · next same =>
      cases recast
      exact .step known known' same
    · split at recast
      · next less =>
        cases recast
        exact .falling known known' less
      · cases recast
  · cases recast

/-- Between literal bounds it is what they bound that is not a literal. -/
theorem literal?_bounded {low high x : Typed} {lowValue highValue : F32}
    (known : low.literal? = some lowValue) (known' : high.literal? = some highValue)
    (unknown : [low, high, x].mapM Typed.literal? = none) : x.literal? = none := by
  cases literal : x.literal? with
  | none => rfl
  | some value => simp [known, known', literal] at unknown

/-- A plain call is a product when it is the dot product of scalars, and else a call. -/
theorem lowerPlainCall_cases (function : Builtin) (arguments : List Typed) {type : ValueType}
    (widest : ValueType.widest (arguments.map (·.type)) = type) :
    (∃ x y, function = .dot ∧ arguments = [x, y] ∧ type = .f32 ∧
      lowerPlainCall function arguments =
        ⟨.paren (.binary .mul (x.convert .f32).code (y.convert .f32).code), .f32⟩) ∨
      ¬ (function = .dot ∧ type = .f32 ∧ arguments.length = 2) ∧
        lowerPlainCall function arguments =
          ⟨.call function.name (arguments.map fun argument => (argument.convert type).code),
            if function.yieldsScalar then .f32 else type⟩ := by
  unfold lowerPlainCall
  rw [widest]
  dsimp only
  split
  · next x y codes =>
    rcases List.map_eq_cons_iff.1 codes with ⟨first, rest, rfl, rfl, others⟩
    rcases List.map_eq_cons_iff.1 others with ⟨second, rest, rfl, rfl, none_left⟩
    cases List.map_eq_nil_iff.1 none_left
    exact .inl ⟨first, second, rfl, rfl, rfl, rfl⟩
  · next other =>
    refine .inr ⟨?_, rfl⟩
    intro given
    rcases given with ⟨dot, scalar, two⟩
    rcases List.length_eq_two.1 two with ⟨x, y, rfl⟩
    exact other _ _ dot scalar rfl

/-- A relation between the codes of one formula in two environments that each step of lowering
keeps. -/
structure Kept (R : Typed → Typed → Prop) : Prop where
  literal : ∀ value, R (.literal value) (.literal value)
  negate : ∀ {x y}, R x y → R (lowerNegate x) (lowerNegate y)
  binary : ∀ operator {x y x' y'}, R x y → R x' y' →
    R (lowerBinary operator x x') (lowerBinary operator y y')
  call : ∀ function {xs ys}, xs.length = function.arity → List.Forall₂ R xs ys →
    R (lowerCall function xs) (lowerCall function ys)
  swizzle : ∀ components {x y x'}, R x y → lowerSwizzle x components = .ok x' →
    ∃ y', lowerSwizzle y components = .ok y' ∧ R x' y'

theorem forall₂_alone {P : Typed → Prop} {xs ys : List Typed}
    (related : List.Forall₂ (fun x y => x = y ∧ P x) xs ys) : xs = ys ∧ ∀ x ∈ xs, P x := by
  induction related with
  | nil => simp
  | cons first _ ih =>
    rcases first with ⟨rfl, holds⟩
    rcases ih with ⟨rfl, others⟩
    exact ⟨rfl, by simpa using ⟨holds, others⟩⟩

/-- A property that each step of lowering keeps. -/
theorem Kept.alone {P : Typed → Prop} (literal : ∀ value, P (.literal value))
    (negate : ∀ {x}, P x → P (lowerNegate x))
    (binary : ∀ operator {x y}, P x → P y → P (lowerBinary operator x y))
    (call : ∀ function {xs}, xs.length = function.arity → (∀ x ∈ xs, P x) →
      P (lowerCall function xs))
    (swizzle : ∀ components {x y}, P x → lowerSwizzle x components = .ok y → P y) :
    Kept fun x y => x = y ∧ P x where
  literal value := ⟨rfl, literal value⟩
  negate := by
    intro x _ given
    rcases given with ⟨rfl, holds⟩
    exact ⟨rfl, negate holds⟩
  binary operator := by
    intro x _ y _ given both
    rcases given with ⟨rfl, holds⟩
    rcases both with ⟨rfl, holds'⟩
    exact ⟨rfl, binary operator holds holds'⟩
  call function := by
    intro xs ys arity related
    rcases forall₂_alone related with ⟨rfl, holds⟩
    exact ⟨rfl, call function arity holds⟩
  swizzle components := by
    intro x _ y given selected
    rcases given with ⟨rfl, holds⟩
    exact ⟨y, selected, rfl, swizzle components holds selected⟩

variable {R : Typed → Typed → Prop} {environment other : Environment}

mutual

theorem Kept.lower (kept : Kept R)
    (slots : ∀ slot, R (environment.get slot) (other.get slot)) : (formula : Formula) →
    formula.Saturated → ∀ {x}, Formula.lower environment formula = .ok x →
      ∃ y, Formula.lower other formula = .ok y ∧ R x y
  | .number value, _, _, lowered => by
    cases lowered
    exact ⟨_, rfl, kept.literal value⟩
  | .pi, _, _, lowered => by
    cases lowered
    exact ⟨_, rfl, kept.literal .pi⟩
  | .slot name, _, _, lowered => by
    cases lowered
    exact ⟨_, rfl, slots name⟩
  | .negate operand, saturated, _, lowered => by
    rcases except_bind_eq_ok.1 lowered with ⟨x, inner, same⟩
    rcases kept.lower slots operand saturated inner with ⟨y, inner', related⟩
    cases same
    exact ⟨_, except_bind_eq_ok.2 ⟨y, inner', rfl⟩, kept.negate related⟩
  | .binary operator left right, ⟨saturated, saturated'⟩, _, lowered => by
    rcases except_bind_eq_ok.1 lowered with ⟨x, first, rest⟩
    rcases except_bind_eq_ok.1 rest with ⟨x', second, same⟩
    rcases kept.lower slots left saturated first with ⟨y, first', related⟩
    rcases kept.lower slots right saturated' second with ⟨y', second', related'⟩
    cases same
    refine ⟨_, except_bind_eq_ok.2 ⟨y, first', ?_⟩, kept.binary operator related related'⟩
    exact except_bind_eq_ok.2 ⟨y', second', rfl⟩
  | .call function arguments, ⟨arity, saturated⟩, _, lowered => by
    rcases except_bind_eq_ok.1 lowered with ⟨xs, inner, same⟩
    rcases kept.lowerAll slots arguments saturated inner with ⟨ys, inner', related, length⟩
    cases same
    exact ⟨_, except_bind_eq_ok.2 ⟨ys, inner', rfl⟩, kept.call function (length.trans arity) related⟩
  | .swizzle vector components, saturated, _, lowered => by
    rcases except_bind_eq_ok.1 lowered with ⟨x, inner, selected⟩
    rcases kept.lower slots vector saturated inner with ⟨y, inner', related⟩
    rcases kept.swizzle components related selected with ⟨y', selected', related'⟩
    exact ⟨y', except_bind_eq_ok.2 ⟨y, inner', selected'⟩, related'⟩

theorem Kept.lowerAll (kept : Kept R)
    (slots : ∀ slot, R (environment.get slot) (other.get slot)) : (formulas : List Formula) →
    AllSaturated formulas → ∀ {xs}, Formula.lowerAll environment formulas = .ok xs →
      ∃ ys, Formula.lowerAll other formulas = .ok ys ∧ List.Forall₂ R xs ys ∧
        xs.length = formulas.length
  | [], _, _, lowered => by
    cases lowered
    exact ⟨[], rfl, .nil, rfl⟩
  | formula :: rest, ⟨saturated, saturated'⟩, _, lowered => by
    rcases except_bind_eq_ok.1 lowered with ⟨x, first, others⟩
    rcases except_bind_eq_ok.1 others with ⟨xs, second, same⟩
    rcases kept.lower slots formula saturated first with ⟨y, first', related⟩
    rcases kept.lowerAll slots rest saturated' second with ⟨ys, second', related', length⟩
    cases same
    refine ⟨y :: ys, except_bind_eq_ok.2 ⟨y, first', ?_⟩, .cons related related', by simp [length]⟩
    exact except_bind_eq_ok.2 ⟨ys, second', rfl⟩

end

/-- What each step of lowering keeps holds of lowered code if it holds of the slots. -/
theorem Kept.holds {P : Typed → Prop} (kept : Kept fun x y => x = y ∧ P x)
    (slots : ∀ slot, P (environment.get slot)) {formula : Formula} (saturated : formula.Saturated)
    {x : Typed} (lowered : Formula.lower environment formula = .ok x) : P x := by
  rcases kept.lower (fun slot => ⟨rfl, slots slot⟩) formula saturated lowered with ⟨_, -, -, holds⟩
  exact holds

end Formula

end NodeShader
