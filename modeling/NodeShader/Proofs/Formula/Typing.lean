import NodeShader.Proofs.Formula.Lowered

/-!
Types of formulas. Lowering succeeds exactly on the formulas that have a type, whatever codes the
slots stand for, and gives code of that type.
-/

namespace NodeShader

namespace Typed

theorem type_of_literal? {x : Typed} {value : F32} (known : x.literal? = some value) :
    x.type = .f32 := by
  unfold literal? at known
  split at known
  · cases known
  · next scalar => exact Decidable.of_not_not scalar

theorem isFinite_of_literal? {x : Typed} {value : F32} (known : x.literal? = some value) :
    value.isFinite = true := by
  unfold literal? at known
  split at known
  · cases known
  · split at known
    · cases known
      exact F32.isFinite_orZero _
    · exact (Option.filter_eq_some_iff.1 known).2
    · cases known

end Typed

namespace Formula

mutual

/-- The type of a formula in slots of given types; none when a scalar is swizzled. -/
def type? (slots : Slot → ValueType) : Formula → Option ValueType
  | .number _ | .pi => some .f32
  | .slot name => some (slots name)
  | .negate operand => type? slots operand
  | .binary _ left right => do return ValueType.widest [← type? slots left, ← type? slots right]
  | .call function arguments => do
    let types ← types? slots arguments
    return if function.yieldsScalar then .f32 else ValueType.widest types
  | .swizzle vector components => do
    if (← type? slots vector) = .f32 then none else return components.type

def types? (slots : Slot → ValueType) : List Formula → Option (List ValueType)
  | [] => some []
  | argument :: rest => do return (← type? slots argument) :: (← types? slots rest)

end

theorem isFinite_one : F32.one.isFinite = true := by decide +kernel

theorem isFinite_pi : F32.pi.isFinite = true := by decide +kernel

theorem widest_scalars {types : List ValueType} (scalars : ∀ type ∈ types, type = .f32) :
    ValueType.widest types = .f32 := by
  induction types with
  | nil => rfl
  | cons type types ih =>
    have head := scalars type List.mem_cons_self
    subst head
    exact ih fun type member => scalars type (List.mem_cons_of_mem _ member)

/-- The widest of scalars and pairs is a scalar or a pair. -/
theorem widest_narrow {types : List ValueType}
    (narrow : ∀ type ∈ types, type = .f32 ∨ type = .vec2f) :
    ValueType.widest types = .f32 ∨ ValueType.widest types = .vec2f := by
  have fold (start : ValueType) (narrow_start : start = .f32 ∨ start = .vec2f) :
      types.foldl ValueType.wider start = .f32 ∨ types.foldl ValueType.wider start = .vec2f := by
    induction types generalizing start with
    | nil => exact narrow_start
    | cons type types ih =>
      apply ih (fun other member => narrow other (List.mem_cons_of_mem _ member)) _
      rcases narrow type List.mem_cons_self with rfl | rfl <;>
        rcases narrow_start with rfl | rfl <;> decide
  exact fold .f32 (.inl rfl)

theorem literals_scalar {arguments : List Typed} {values : List F32}
    (known : arguments.mapM Typed.literal? = some values) :
    ∀ type ∈ arguments.map (·.type), type = .f32 := by
  induction arguments generalizing values with
  | nil => simp
  | cons argument arguments ih =>
    simp only [List.mapM_cons, Option.bind_eq_bind, Option.bind_eq_some_iff] at known
    rcases known with ⟨value, first, values, rest, -⟩
    intro type member
    rcases List.mem_cons.1 member with rfl | member
    · exact Typed.type_of_literal? first
    · exact ih rest type member

theorem lowerNegate_type (x : Typed) : (lowerNegate x).type = x.type := by
  unfold lowerNegate
  split
  · next known => exact (Typed.type_of_literal? known).symm
  · rfl

theorem lowerBinary_type (operator : Operator) (left right : Typed) :
    (lowerBinary operator left right).type = ValueType.widest [left.type, right.type] := by
  unfold lowerBinary
  split
  · next known known' =>
    rw [Typed.type_of_literal? known, Typed.type_of_literal? known']
    rfl
  · rfl

theorem lowerMisordered?_type {function : Builtin} {arguments : List Typed} {x : Typed}
    (recast : lowerMisordered? function arguments = some x) :
    function.yieldsScalar = false ∧ x.type = ValueType.widest (arguments.map (·.type)) := by
  have widest {low high y : Typed} {lowValue highValue : F32} (known : low.literal? = some lowValue)
      (known' : high.literal? = some highValue) :
      y.type = ValueType.widest [y.type, low.type, high.type] ∧
        y.type = ValueType.widest [low.type, high.type, y.type] := by
    rw [Typed.type_of_literal? known, Typed.type_of_literal? known']
    cases y.type <;> exact ⟨rfl, rfl⟩
  cases recast_of_lowerMisordered? recast with
  | clamp known known' => exact ⟨rfl, (widest known known').1⟩
  | step known known' => exact ⟨rfl, (widest known known').2⟩
  | falling known known' => exact ⟨rfl, (widest known known').2⟩

theorem lowerPlainCall_type (function : Builtin) (arguments : List Typed) :
    (lowerPlainCall function arguments).type =
      if function.yieldsScalar then .f32 else ValueType.widest (arguments.map (·.type)) := by
  rcases lowerPlainCall_cases function arguments rfl with ⟨x, y, rfl, rfl, -, same⟩ | ⟨-, same⟩
  · rw [same]
    rfl
  · rw [same]

theorem lowerCall_type (function : Builtin) (arguments : List Typed) :
    (lowerCall function arguments).type =
      if function.yieldsScalar then .f32 else ValueType.widest (arguments.map (·.type)) := by
  unfold lowerCall
  split
  · next values known =>
    rw [widest_scalars (literals_scalar known)]
    exact (ite_self _).symm
  · cases recast : lowerMisordered? function arguments with
    | none => exact lowerPlainCall_type function arguments
    | some x =>
      rcases lowerMisordered?_type recast with ⟨vector, type⟩
      rw [vector]
      exact type

mutual

theorem lower_type (environment : Environment) : (formula : Formula) →
    (lower environment formula).toOption.map (·.type) =
      formula.type? fun slot => (environment.get slot).type
  | .number _ => rfl
  | .pi => rfl
  | .slot _ => rfl
  | .negate operand => by
    have ih := lower_type environment operand
    rw [lower, type?, ← ih]
    cases lower environment operand with
    | error => rfl
    | ok x => exact congrArg some (lowerNegate_type x)
  | .binary operator left right => by
    have first := lower_type environment left
    have second := lower_type environment right
    rw [lower, type?, ← first, ← second]
    cases lower environment left with
    | error => rfl
    | ok x =>
      cases lower environment right with
      | error => rfl
      | ok y => exact congrArg some (lowerBinary_type operator x y)
  | .call function arguments => by
    have ih := lowerAll_type environment arguments
    rw [lower, type?, ← ih]
    cases lowerAll environment arguments with
    | error => rfl
    | ok xs => exact congrArg some (lowerCall_type function xs)
  | .swizzle vector components => by
    have ih := lower_type environment vector
    rw [lower, type?, ← ih]
    cases lower environment vector with
    | error => rfl
    | ok x =>
      change (lowerSwizzle x components).toOption.map _ =
        if x.type = .f32 then none else some components.type
      unfold lowerSwizzle
      split <;> rfl

theorem lowerAll_type (environment : Environment) : (formulas : List Formula) →
    (lowerAll environment formulas).toOption.map (·.map (·.type)) =
      types? (fun slot => (environment.get slot).type) formulas
  | [] => rfl
  | formula :: rest => by
    have first := lower_type environment formula
    have others := lowerAll_type environment rest
    rw [lowerAll, types?, ← first, ← others]
    cases lower environment formula with
    | error => rfl
    | ok x =>
      cases lowerAll environment rest with
      | error => rfl
      | ok xs => rfl

end

theorem lower_error_iff (environment : Environment) (formula : Formula) :
    (∃ error, lower environment formula = .error error) ↔
      formula.type? (fun slot => (environment.get slot).type) = none := by
  rw [← lower_type]
  cases lower environment formula with
  | error error => exact ⟨fun _ => rfl, fun _ => ⟨error, rfl⟩⟩
  | ok x =>
    exact iff_of_false (not_error_of_ok rfl) (by simp [Except.toOption])

/-- A text compiles if it is a formula with a type; so whether it does depends on the types of the
slots, not on what stands in them. -/
theorem compileScalar_error_iff (environment : Environment) (text : String) :
    (∃ error, compileScalar environment text = .error error) ↔
      (∃ error, parse text = .error error) ∨
        ∃ formula, parse text = .ok formula ∧
          formula.type? (fun slot => (environment.get slot).type) = none := by
  unfold compileScalar
  cases parse text with
  | error error => simp [bind, Except.bind]
  | ok formula =>
    simp only [← lower_error_iff, reduceCtorEq, exists_false, false_or, Except.ok.injEq,
      exists_eq_left']
    change (∃ error, (lower environment formula >>= fun x => .ok (x.convert .f32)) = .error error) ↔ _
    exact except_map_error_iff fun x : Typed => x.convert .f32

end Formula

end NodeShader
