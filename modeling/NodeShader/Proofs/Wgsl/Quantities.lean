import NodeShader.Proofs.Wgsl.Evaluation
import NodeShader.Wgsl.Builtin
import NodeShader.Formula.Basic

/-!
Scalars and pairs of them as the values of expressions. The operations are those of the table of
builtin functions, component by component on pairs; what the functions that reduce a pair to a scalar
give is left open.
-/

namespace NodeShader

inductive Quantity where
  | scalar (value : F32)
  | pair (first second : F32)
  deriving DecidableEq, Repr

namespace Quantity

def first : Quantity → F32
  | .scalar value => value
  | .pair first _ => first

def second : Quantity → F32
  | .scalar value => value
  | .pair _ second => second

def isScalar : Quantity → Bool
  | .scalar _ => true
  | .pair _ _ => false

def type : Quantity → ValueType
  | .scalar _ => .f32
  | .pair _ _ => .vec2f

/-- A quantity as a scalar or, its value in both components, as a pair. -/
def spread (x : Quantity) : ValueType → Quantity
  | .f32 => x
  | _ => .pair x.first x.second

def negate : Quantity → Quantity
  | .scalar value => .scalar (-value)
  | .pair first second => .pair (-first) (-second)

/-- An operation, on each component if one of the operands is a pair. -/
def operate (operator : Operator) : Quantity → Quantity → Quantity
  | .scalar x, .scalar y => .scalar (operator.apply x y)
  | x, y => .pair (operator.apply x.first y.first) (operator.apply x.second y.second)

def select : Quantity → Swizzle → Option Quantity
  | .scalar _, _ => none
  | .pair first second, .one component => some (.scalar (pick component first second))
  | .pair first second, .two component component' =>
    some (.pair (pick component first second) (pick component' first second))
where
  pick : Axis → F32 → F32 → F32
    | .x, first, _ => first
    | .y, _, second => second

variable {x : Quantity}

@[simp]
theorem first_spread (type : ValueType) : (x.spread type).first = x.first := by
  cases type <;> rfl

@[simp]
theorem second_spread (type : ValueType) : (x.spread type).second = x.second := by
  cases type <;> rfl

theorem type_eq_f32_iff : x.type = .f32 ↔ x.isScalar = true := by
  cases x <;> simp [type, isScalar]

theorem type_narrow (x : Quantity) : x.type = .f32 ∨ x.type = .vec2f := by
  cases x
  · exact .inl rfl
  · exact .inr rfl

@[simp]
theorem type_negate (x : Quantity) : x.negate.type = x.type := by
  cases x <;> rfl

@[simp]
theorem type_operate (operator : Operator) (x y : Quantity) :
    (x.operate operator y).type = ValueType.widest [x.type, y.type] := by
  cases x <;> cases y <;> rfl

/-- A scalar operand may as well be the pair it fills, if the other is a pair. -/
theorem operate_spread (operator : Operator) (value : F32) (x : Quantity) :
    ((scalar value).spread x.type).operate operator x = (scalar value).operate operator x := by
  cases x <;> rfl

/-- Quantities of one type: all scalars, or all pairs. -/
def alike (xs : List Quantity) : Bool := xs.all isScalar || xs.all fun x => !x.isScalar

/-- The widest type of quantities is that of scalars only if there is no pair. -/
theorem widest_types (xs : List Quantity) :
    ValueType.widest (xs.map type) = if xs.all isScalar then .f32 else .vec2f := by
  have fold (start : ValueType) (narrow : start = .f32 ∨ start = .vec2f) :
      (xs.map type).foldl ValueType.wider start = if xs.all isScalar then start else .vec2f := by
    induction xs generalizing start with
    | nil => rfl
    | cons x xs ih =>
      rw [List.map_cons, List.foldl_cons, List.all_cons]
      rcases narrow with rfl | rfl
      · cases x with
        | scalar => exact ih _ (.inl rfl)
        | pair =>
          calc
            _ = (if xs.all isScalar then .vec2f else .vec2f : ValueType) := ih _ (.inr rfl)
            _ = .vec2f := ite_self _
      · have wide : ValueType.vec2f.wider x.type = .vec2f := by cases x <;> rfl
        rw [wide, ih _ (.inr rfl), ite_self, ite_self]
  exact fold .f32 (.inl rfl)

/-- Quantities brought to the widest of their types are of one type. -/
theorem alike_spread (xs : List Quantity) :
    alike (xs.map (·.spread (ValueType.widest (xs.map type)))) = true := by
  rw [widest_types]
  unfold alike
  by_cases scalars : xs.all isScalar = true
  · have same : (fun x : Quantity => x.spread .f32) = id := rfl
    rw [if_pos scalars, same, List.map_id, scalars]
    rfl
  · rw [if_neg scalars, List.all_map, List.all_map, Bool.or_eq_true]
    exact .inr (List.all_eq_true.2 fun _ _ => rfl)

theorem all_isScalar_spread (xs : List Quantity) :
    (xs.map (·.spread (ValueType.widest (xs.map type)))).all isScalar = xs.all isScalar := by
  rw [widest_types]
  by_cases scalars : xs.all isScalar = true
  · have same : (fun x : Quantity => x.spread .f32) = id := rfl
    rw [if_pos scalars, same, List.map_id]
  · rw [if_neg scalars]
    cases xs with
    | nil => rfl
    | cons x xs => exact (Bool.eq_false_iff.2 scalars).symm

end Quantity

/-- What a shader is given: the position, the time, and what its functions make of pairs. -/
structure Setting where
  position : F32 × F32
  time : F32
  measure : Builtin → List (F32 × F32) → F32

/-- The value of a function, on each component if one of the arguments is a pair. -/
def Builtin.compute (setting : Setting) (function : Builtin) (xs : List Quantity) : Quantity :=
  if xs.all Quantity.isScalar then .scalar (function.apply (xs.map Quantity.first))
  else if function.yieldsScalar then
    .scalar (setting.measure function (xs.map fun x => (x.first, x.second)))
  else .pair (function.apply (xs.map Quantity.first)) (function.apply (xs.map Quantity.second))

/-- Quantities as values. Numerals stand for finite numbers, and the arguments of a function are of
one type, which is that of pairs for a dot product. -/
def Domain.quantities (setting : Setting) : Domain Quantity where
  uv := .pair setting.position.1 setting.position.2
  time := .scalar setting.time
  literal digits := ((Floating.read? digits).filter Floating.isFinite).map .scalar
  negate x := some x.negate
  operate operator x y := some (x.operate operator y)
  call function xs :=
    match Builtin.ofName? function with
    | some function =>
      if xs.length = function.arity ∧ Quantity.alike xs = true ∧
          ¬ (function = .dot ∧ xs.all Quantity.isScalar = true) then
        some (function.compute setting xs)
      else none
    | none =>
      match function, xs with
      | "vec2f", [.scalar value] => some (.pair value value)
      | "vec2f", [.scalar first, .scalar second] => some (.pair first second)
      | _, _ => none
  select x components := (Swizzle.ofWord? components.toList).bind x.select
  suits type x := x.type = type

variable {setting : Setting}

namespace Builtin

/-- A function does not tell a scalar among pairs from the pair it fills. -/
theorem compute_spread (function : Builtin) (xs : List Quantity) :
    function.compute setting (xs.map (·.spread (ValueType.widest (xs.map Quantity.type)))) =
      function.compute setting xs := by
  unfold compute
  rw [Quantity.all_isScalar_spread]
  simp only [List.map_map, Function.comp_def, Quantity.first_spread, Quantity.second_spread]

theorem type_compute (function : Builtin) (xs : List Quantity) :
    (function.compute setting xs).type =
      if function.yieldsScalar then .f32 else ValueType.widest (xs.map Quantity.type) := by
  rw [Quantity.widest_types]
  unfold compute
  split
  · exact (ite_self _).symm
  · split <;> rfl

end Builtin

namespace Domain

/-- A literal has the value of its number. -/
theorem quantities_number (x : F32) : (quantities setting).number x = some (.scalar x.orZero) := by
  obtain ⟨read, value⟩ := x.numeral_value
  have literal : (quantities setting).literal x.numeral.2 =
      some (.scalar (Lexeme.numberValue x.numeral.2)) := by
    change Option.map _ (Option.filter _ (Floating.read? x.numeral.2)) = _
    rw [read, Option.filter_some, if_pos x.isFinite_numberValue]
    rfl
  rw [number, literal, ← value]
  split <;> rfl

theorem quantities_convert (x : Quantity) {target : ValueType} (narrow : target = .f32 ∨ target = .vec2f)
    (wide : target = .f32 → x.isScalar = true) :
    (quantities setting).convert x.type target x = some (x.spread target) := by
  rcases narrow with rfl | rfl
  · cases x with
    | scalar => rfl
    | pair => cases wide rfl
  · cases x with
    | scalar value =>
      have constructor : Builtin.ofName? "vec2f" = none := by decide
      change (quantities setting).call "vec2f" [.scalar value] = _
      simp only [quantities, constructor]
      rfl
    | pair => rfl

/-- A function of arguments that were brought to one type. -/
theorem quantities_call {function : Builtin} {xs : List Quantity} (arity : xs.length = function.arity)
    (proper : ¬ (function = .dot ∧ xs.all Quantity.isScalar = true)) :
    (quantities setting).call function.name
        (xs.map (·.spread (ValueType.widest (xs.map Quantity.type)))) =
      some (function.compute setting xs) := by
  simp only [quantities, Builtin.ofName?_name]
  rw [if_pos, Builtin.compute_spread]
  rw [List.length_map, Quantity.all_isScalar_spread]
  exact ⟨arity, Quantity.alike_spread xs, proper⟩

end Domain

end NodeShader
