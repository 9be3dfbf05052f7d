import NodeShader.Proofs.Floating.ReadBack
import NodeShader.Proofs.Formula.Places

/-!
Formulas of literals alone. Lowering carries them out down to one literal, whose value is computed
operation by operation on the tree: what is not finite counts as zero where it arises.
-/

namespace NodeShader

/-- A literal is read from its text as the number it stands for. -/
theorem Typed.read?_text {x : Typed} {value : F32} (known : x.literal? = some value) :
    Floating.read? x.text.toList = some value := by
  obtain ⟨code, type⟩ := x
  unfold literal? at known
  split at known
  · cases known
  · cases code with
    | literal number =>
      cases known
      exact Floating.read?_fractional (F32.isFinite_orZero number)
    | name text => exact (Option.filter_eq_some_iff.1 known).1
    | _ => cases known

/-- The number that stands in a slot as a literal. -/
def Environment.literal? (environment : Environment) (slot : Slot) : Option F32 :=
  (environment.get slot).literal?

namespace Formula

mutual

/-- The slots that a formula refers to. -/
def slots : Formula → List Slot
  | .number _ | .pi => []
  | .slot name => [name]
  | .negate operand => slots operand
  | .binary _ left right => slots left ++ slots right
  | .call _ arguments => slotsAll arguments
  | .swizzle vector _ => slots vector

def slotsAll : List Formula → List Slot
  | [] => []
  | argument :: rest => slots argument ++ slotsAll rest

end

mutual

/-- Whether a component is taken of something in a formula. -/
def takesComponents : Formula → Bool
  | .number _ | .pi | .slot _ => false
  | .negate operand => takesComponents operand
  | .binary _ left right => takesComponents left || takesComponents right
  | .call _ arguments => anyTakesComponents arguments
  | .swizzle _ _ => true

def anyTakesComponents : List Formula → Bool
  | [] => false
  | argument :: rest => takesComponents argument || anyTakesComponents rest

end

mutual

/-- The value of a formula of numbers, given the values of its slots. Each result that is not finite
counts as zero. -/
def value? (values : Slot → Option F32) : Formula → Option F32
  | .number value => some value.orZero
  | .pi => some .pi
  | .slot name => values name
  | .negate operand => do return (-(← value? values operand)).orZero
  | .binary operator left right => do
    return (operator.apply (← value? values left) (← value? values right)).orZero
  | .call function arguments => do return (function.apply (← values? values arguments)).orZero
  | .swizzle _ _ => none

def values? (values : Slot → Option F32) : List Formula → Option (List F32)
  | [] => some []
  | argument :: rest => do return (← value? values argument) :: (← values? values rest)

end

mutual

/-- What stands in other slots than a formula refers to does not matter for its code. -/
theorem lower_congr {environment other : Environment} : (formula : Formula) →
    (∀ slot ∈ formula.slots, other.get slot = environment.get slot) →
    lower other formula = lower environment formula
  | .number _, _ => rfl
  | .pi, _ => rfl
  | .slot name, same => congrArg Except.ok (same name List.mem_cons_self)
  | .negate operand, same => by rw [lower, lower, lower_congr operand same]
  | .binary operator left right, same => by
    have ⟨first, second⟩ := List.forall_mem_append.1 same
    rw [lower, lower, lower_congr left first, lower_congr right second]
  | .call function arguments, same => by rw [lower, lower, lowerAll_congr arguments same]
  | .swizzle vector components, same => by rw [lower, lower, lower_congr vector same]

theorem lowerAll_congr {environment other : Environment} : (formulas : List Formula) →
    (∀ slot ∈ slotsAll formulas, other.get slot = environment.get slot) →
    lowerAll other formulas = lowerAll environment formulas
  | [], _ => rfl
  | formula :: rest, same => by
    have ⟨first, others⟩ := List.forall_mem_append.1 same
    rw [lowerAll, lowerAll, lower_congr formula first, lowerAll_congr rest others]

end

mutual

/-- A formula whose slots hold literals is lowered to the literal of its value. -/
theorem lower_value {environment : Environment} : (formula : Formula) →
    formula.takesComponents = false →
    (∀ slot ∈ formula.slots, (environment.literal? slot).isSome = true) →
    ∃ x value, lower environment formula = .ok x ∧ x.literal? = some value ∧
      formula.value? environment.literal? = some value
  | .number value, _, _ => ⟨_, _, rfl, rfl, rfl⟩
  | .pi, _, _ => ⟨_, _, rfl, congrArg some (F32.orZero_of_isFinite isFinite_pi), rfl⟩
  | .slot name, _, literals => by
    obtain ⟨value, known⟩ := Option.isSome_iff_exists.1 (literals name List.mem_cons_self)
    exact ⟨_, value, rfl, known, known⟩
  | .negate operand, plain, literals => by
    obtain ⟨x, value, lowered, known, same⟩ := lower_value operand plain literals
    refine ⟨.literal (-value), (-value).orZero, ?_, rfl, ?_⟩
    · rw [lower, lowered]
      change Except.ok (lowerNegate x) = _
      rw [lowerNegate, known]
    · rw [value?, same]
      rfl
  | .binary operator left right, plain, literals => by
    rw [takesComponents, Bool.or_eq_false_iff] at plain
    have ⟨first, second⟩ := List.forall_mem_append.1 literals
    obtain ⟨x, value, lowered, known, same⟩ := lower_value left plain.1 first
    obtain ⟨y, value', lowered', known', same'⟩ := lower_value right plain.2 second
    refine ⟨.literal (operator.apply value value'), _, ?_, rfl, ?_⟩
    · rw [lower, lowered, lowered']
      change Except.ok (lowerBinary operator x y) = _
      rw [lowerBinary, known, known']
    · rw [value?, same, same']
      rfl
  | .call function arguments, plain, literals => by
    obtain ⟨xs, values, lowered, known, same⟩ := lowerAll_values arguments plain literals
    refine ⟨.literal (function.apply values), _, ?_, rfl, ?_⟩
    · rw [lower, lowered]
      change Except.ok (lowerCall function xs) = _
      rw [lowerCall, known]
    · rw [value?, same]
      rfl

theorem lowerAll_values {environment : Environment} : (formulas : List Formula) →
    anyTakesComponents formulas = false →
    (∀ slot ∈ slotsAll formulas, (environment.literal? slot).isSome = true) →
    ∃ xs values, lowerAll environment formulas = .ok xs ∧ xs.mapM Typed.literal? = some values ∧
      values? environment.literal? formulas = some values
  | [], _, _ => ⟨[], [], rfl, rfl, rfl⟩
  | formula :: rest, plain, literals => by
    rw [anyTakesComponents, Bool.or_eq_false_iff] at plain
    have ⟨first, others⟩ := List.forall_mem_append.1 literals
    obtain ⟨x, value, lowered, known, same⟩ := lower_value formula plain.1 first
    obtain ⟨xs, values, lowered', known', same'⟩ := lowerAll_values rest plain.2 others
    refine ⟨x :: xs, value :: values, ?_, ?_, ?_⟩
    · rw [lowerAll, lowered, lowered']
      rfl
    · rw [List.mapM_cons, known, known']
      rfl
    · rw [values?, same, same']
      rfl

end

/-- A formula of literals alone has code, which is the literal of its value, also as the literal is
read from its text. The value is finite, and only the slots that the formula refers to matter. -/
theorem lower_literals {environment : Environment} {formula : Formula}
    (saturated : formula.Saturated) (plain : formula.takesComponents = false)
    (literals : ∀ slot ∈ formula.slots, (environment.literal? slot).isSome = true) :
    ∃ x value, lower environment formula = .ok x ∧ lowerByPlace environment formula = .ok x ∧
      formula.value? environment.literal? = some value ∧ value.isFinite = true ∧
      x.type = .f32 ∧ x.literal? = some value ∧ Floating.read? x.text.toList = some value ∧
      ∀ other : Environment, (∀ slot ∈ formula.slots, other.get slot = environment.get slot) →
        lower other formula = .ok x := by
  obtain ⟨x, value, lowered, known, same⟩ := lower_value formula plain literals
  have placed := lowerByPlace_eq environment formula saturated
  rw [lowered] at placed
  exact ⟨x, value, lowered, placed, same, Typed.isFinite_of_literal? known,
    Typed.type_of_literal? known, known, Typed.read?_text known,
    fun other agree => (lower_congr formula agree).trans lowered⟩

/-- Literals in the scalar slots that a formula may be given, and a name in the third one. -/
def settled : Environment where
  a := ⟨.name "+.5", .f32⟩
  b := .literal (.zero true)
  time := ⟨.name "u_time", .f32⟩
  uv := ⟨.name "uv", .vec2f⟩

/-- The quotient and the product are infinite, and the edges of the rise are in the wrong order. -/
def overflowing : Formula :=
  .binary .add (.call .max [.negate (.binary .div .pi (.slot .b)), .slot .a])
    (.call .smoothstep [.binary .mul (.number (.ofDecimal 3 38)) (.number (.ofDecimal 10 0)),
      .number (-.one), .slot .a])

theorem overflowing_literals : overflowing.Saturated ∧ overflowing.takesComponents = false ∧
    (∀ slot ∈ overflowing.slots, (settled.literal? slot).isSome = true) ∧
    ∃ x, lower settled overflowing = .ok x ∧ x.literal? = some (.ofDecimal 5 (-1)) ∧
      Floating.read? x.text.toList = some (.ofDecimal 5 (-1) : F32) := by
  have saturated : overflowing.Saturated := by
    simp [overflowing, Saturated, AllSaturated, Builtin.arity]
  have plain : overflowing.takesComponents = false := rfl
  have literals : ∀ slot ∈ overflowing.slots, (settled.literal? slot).isSome = true := by
    decide +kernel
  have computed : overflowing.value? settled.literal? = some (.ofDecimal 5 (-1)) := by
    decide +kernel
  obtain ⟨x, value, lowered, -, same, -, -, known, read, -⟩ :=
    lower_literals saturated plain literals
  have value_eq := Option.some.inj (same.symm.trans computed)
  rw [value_eq] at known read
  exact ⟨saturated, plain, literals, x, lowered, known, read⟩

end Formula

end NodeShader
