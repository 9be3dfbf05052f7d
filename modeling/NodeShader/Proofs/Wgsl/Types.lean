import NodeShader.Proofs.Wgsl.Evaluation
import NodeShader.Wgsl.Builtin

/-!
Types as the values of expressions: what the shading language allows, and what it gives.
-/

namespace NodeShader

/-- The type of a constructor: a vector of one scalar, of a scalar for each component, or of a
shorter vector and a scalar. -/
def ValueType.constructed? : String → List ValueType → Option ValueType
  | "vec2f", [.f32] | "vec2f", [.f32, .f32] => some .vec2f
  | "vec3f", [.f32] | "vec3f", [.f32, .f32, .f32] | "vec3f", [.vec2f, .f32] => some .vec3f
  | _, _ => none

/-- The type of a call: all arguments have the same type, which is a vector for a dot product. -/
def Builtin.type? (function : Builtin) : List ValueType → Option ValueType
  | [] => none
  | type :: rest =>
    if rest.length + 1 == function.arity && rest.all (· == type) && type != .vec4f &&
        !(function == .dot && type == .f32) then
      some (if function.yieldsScalar then .f32 else type)
    else none

/-- The type of some components of a vector; each must be one that the vector has. -/
def ValueType.selected? (vector : ValueType) (components : String) : Option ValueType :=
  let present := ['x', 'y', 'z', 'w'].take vector.components
  if vector == .f32 || !components.toList.all present.contains then none
  else match components.toList.length with
    | 1 => some .f32
    | 2 => some .vec2f
    | 3 => some .vec3f
    | 4 => some .vec4f
    | _ => none

/-- The type of an operation; a scalar goes with every component of a vector. -/
def ValueType.operated? (left right : ValueType) : Option ValueType :=
  if left == right || right == .f32 then some left else if left == .f32 then some right else none

/-- Types as values. Integer literals have none. -/
def Domain.types : Domain ValueType where
  uv := .vec2f
  time := .f32
  literal digits := if digits.contains '.' || digits.contains 'e' then some .f32 else none
  negate := some
  operate _ := ValueType.operated?
  call function arguments :=
    match Builtin.ofName? function with
    | some function => function.type? arguments
    | none => ValueType.constructed? function arguments
  select := ValueType.selected?
  suits type result := type == result

namespace Domain

theorem types_number (x : F32) : types.number x = some .f32 := by
  have float : (x.numeral.2.contains '.' || x.numeral.2.contains 'e') = true := by
    have numeral := x.literalText_toList.1
    generalize x.numeral.2 = digits at numeral
    cases numeral with
    | point => simp
    | exponent whole exponent _ _ raised =>
      rcases raised with ⟨sign, digits, rfl, -⟩
      simp
    | both => simp
  have magnitude : types.literal x.numeral.2 = some .f32 := if_pos float
  rw [number, magnitude]
  split <;> rfl

theorem types_zero {type : ValueType} (narrow : type ≠ .vec4f) : types.zero type = some type := by
  have number := types_number (.zero false)
  cases type with
  | f32 => exact number
  | vec2f | vec3f =>
    rw [zero, number]
    · rfl
    · intro given
      cases given
  | vec4f => exact absurd rfl narrow

theorem types_mean {vector : ValueType} {first : String} {rest : List String}
    (start : vector.selected? first = some .f32)
    (others : ∀ component ∈ rest, vector.selected? component = some .f32) :
    types.mean vector first rest = some .f32 := by
  have sum : rest.foldlM
      (fun sum component => do types.operate .add sum (← types.select vector component))
      ValueType.f32 = some .f32 := by
    induction rest with
    | nil => rfl
    | cons component rest ih =>
      have next : types.select vector component = some .f32 := others component List.mem_cons_self
      rw [List.foldlM_cons, next]
      exact ih fun other member => others other (List.mem_cons_of_mem _ member)
  have start : types.select vector first = some .f32 := start
  rw [mean, types_number, start]
  simp only [Option.bind_eq_bind, Option.bind_some] at sum ⊢
  rw [sum]
  rfl

/-- Values can be converted between all types but the widest, which has no constructor here. -/
theorem types_convert {source target : ValueType} (narrow : source ≠ .vec4f)
    (narrow' : target ≠ .vec4f) : types.convert source target source = some target := by
  cases source with
  | f32 =>
    cases target with
    | f32 | vec2f | vec3f => rfl
    | vec4f => exact absurd rfl narrow'
  | vec2f =>
    cases target with
    | f32 => exact types_mean (by decide) (by decide)
    | vec2f => rfl
    | vec3f =>
      simp only [convert, types_number]
      rfl
    | vec4f => exact absurd rfl narrow'
  | vec3f =>
    cases target with
    | f32 => exact types_mean (by decide) (by decide)
    | vec2f | vec3f => rfl
    | vec4f => exact absurd rfl narrow'
  | vec4f => exact absurd rfl narrow

theorem arity_pos (function : Builtin) : 0 < function.arity := by
  cases function <;> decide

/-- Arguments of one type, as many as the function takes, can be given to it. -/
theorem types_call {function : Builtin} {type : ValueType} (narrow : type ≠ .vec4f)
    (proper : ¬ (function = .dot ∧ type = .f32)) :
    types.call function.name (List.replicate function.arity type) =
      some (if function.yieldsScalar then .f32 else type) := by
  have named := Builtin.ofName?_name function
  rcases Nat.exists_eq_succ_of_ne_zero (Nat.ne_of_gt (arity_pos function)) with ⟨others, arity⟩
  simp only [types, named, arity, List.replicate_succ, Builtin.type?]
  have allowed : (function == .dot && type == .f32) = false := by
    rw [Bool.eq_false_iff]
    simpa using proper
  simp [narrow, allowed]

end Domain

end NodeShader
