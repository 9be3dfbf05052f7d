import NodeShader.Proofs.Formula.Arity
import NodeShader.Proofs.Wgsl.Expression

/-!
The code of formulas has parentheses wherever the grammar of shader expressions asks for them.
-/

namespace NodeShader

namespace Code

variable {code : Code}

theorem rank_le (code : Code) : code.rank ≤ 3 := by
  cases code with
  | literal value =>
    rw [rank]
    split <;> decide
  | binary operator left right =>
    change operator.rank ≤ 3
    rcases operator.rank_cases with h | h <;> omega
  | negate inner => exact Nat.le_add_left 1 2
  | name | paren | call | member => exact Nat.zero_le _

theorem rank_literal (value : F32) : (literal value).rank ≤ 1 := by
  rw [rank]
  split <;> decide

theorem fits_select (fits : code.Fits) (closed : code.IsClosed) {components : String}
    (name : Lexeme.isName components = true) : (code.select components).Fits := by
  unfold select
  split
  · exact ⟨fits, closed, name⟩
  · exact ⟨fits, trivial, name⟩

theorem closed_select (code : Code) (components : String) : (code.select components).IsClosed := by
  unfold select
  split <;> trivial

end Code

namespace Typed

/-- Code that may stand as an operand: a literal, or code that components can be taken of. -/
def Fits (x : Typed) : Prop := x.code.Fits ∧ (x.code.IsClosed ∨ ∃ value, x = .literal value)

variable {x : Typed}

theorem fits_literal (value : F32) : (literal value).Fits := ⟨trivial, .inr ⟨value, rfl⟩⟩

theorem fits_name {text : String} (name : Lexeme.isName text = true) (type : ValueType) :
    (Typed.mk (.name text) type).Fits :=
  ⟨name, .inl trivial⟩

theorem Fits.rank (fits : x.Fits) : x.code.rank ≤ 1 := by
  rcases fits.2 with closed | ⟨value, rfl⟩
  · rw [Code.rank_of_closed closed]
    exact Nat.zero_le _
  · exact Code.rank_literal value

theorem Fits.closed (fits : x.Fits) (vector : x.type ≠ .f32) : x.code.IsClosed := by
  rcases fits.2 with closed | ⟨value, rfl⟩
  · exact closed
  · exact absurd rfl vector

theorem Fits.closed_of_unknown (fits : x.Fits) (unknown : x.literal? = none) : x.code.IsClosed := by
  rcases fits.2 with closed | ⟨value, rfl⟩
  · exact closed
  · rw [literal?_literal] at unknown
    cases unknown

theorem fits_zero (type : ValueType) : (zero type).Fits := by
  cases type with
  | f32 => exact fits_literal _
  | vec2f | vec3f | vec4f =>
    refine ⟨⟨by decide, ?_⟩, .inl trivial⟩
    simp [ValueType.components, List.replicate, Code.FitsAll, Code.Fits]

theorem fits_mean {code : Code} (fits : code.Fits) (closed : code.IsClosed) {first : String}
    {rest : List String} (name : Lexeme.isName first = true)
    (names : ∀ component ∈ rest, Lexeme.isName component = true) : (mean code first rest).Fits := by
  have sum_fits (sum : Code) (fits_sum : sum.Fits) :
      ((rest.map code.select).foldl (Code.binary .add) sum).Fits := by
    induction rest generalizing sum with
    | nil => exact fits_sum
    | cons component rest ih =>
      apply ih (fun other member => names other (List.mem_cons_of_mem _ member)) _
      have fits_component := Code.fits_select fits closed (names component List.mem_cons_self)
      refine ⟨fits_sum, fits_component, Code.rank_le sum, ?_⟩
      rw [Code.rank_of_closed (Code.closed_select code component)]
      decide
  have rank := Code.rank_literal (.ofDecimal (rest.length + 1) 0)
  exact ⟨sum_fits _ (Code.fits_select fits closed name), trivial, Nat.zero_le _,
    Nat.lt_succ_of_le rank⟩

/-- The code of a call fits if the codes of its arguments do. -/
theorem fits_call {function : String} {arguments : List Code} {type : ValueType}
    (name : Lexeme.isName function = true) (fits : ∀ argument ∈ arguments, argument.Fits) :
    (Typed.mk (.call function arguments) type).Fits := by
  refine ⟨⟨name, ?_⟩, .inl trivial⟩
  induction arguments with
  | nil => trivial
  | cons argument arguments ih =>
    exact ⟨fits argument List.mem_cons_self,
      ih fun other member => fits other (List.mem_cons_of_mem _ member)⟩

theorem fits_number (digits : Nat) (exponent : Int) : (Code.number digits exponent).Fits := trivial

/-- Converted code fits if the code does. -/
theorem Fits.convert (fits : x.Fits) (target : ValueType) : (x.convert target).Fits := by
  by_cases same : x.type = target
  · rw [← same, convert_self]
    exact fits
  have inner := fits.1
  have closed := fits.closed
  rcases x with ⟨code, type⟩
  dsimp only at inner
  cases type with
  | f32 =>
    cases target with
    | f32 => exact absurd rfl same
    | vec2f | vec3f => exact fits_call (by decide) (by simp [inner])
    | vec4f =>
      have vector : (Typed.mk (.call "vec3f" [code]) .vec3f).Fits :=
        fits_call (by decide) (by simp [inner])
      exact fits_call (by decide) (by simp [vector.1, fits_number])
  | vec2f =>
    cases target with
    | f32 => exact ⟨fits_mean inner (closed nofun) (by decide) (by decide), .inl trivial⟩
    | vec2f => exact absurd rfl same
    | vec3f | vec4f => exact fits_call (by decide) (by simp [inner, fits_number])
  | vec3f =>
    cases target with
    | f32 => exact ⟨fits_mean inner (closed nofun) (by decide) (by decide), .inl trivial⟩
    | vec2f => exact ⟨Code.fits_select inner (closed nofun) (by decide), .inl (code.closed_select _)⟩
    | vec3f => exact absurd rfl same
    | vec4f => exact fits_call (by decide) (by simp [inner, fits_number])
  | vec4f =>
    cases target with
    | f32 => exact ⟨fits_mean inner (closed nofun) (by decide) (by decide), .inl trivial⟩
    | vec2f | vec3f =>
      exact ⟨Code.fits_select inner (closed nofun) (by decide), .inl (code.closed_select _)⟩
    | vec4f => exact absurd rfl same

end Typed

namespace Formula

theorem fits_paren {code : Code} {type : ValueType} (fits : code.Fits) :
    (Typed.mk (.paren code) type).Fits :=
  ⟨fits, .inl trivial⟩

theorem fits_operation {operator : Operator} {x y : Typed} (fits : x.Fits) (fits' : y.Fits) :
    (Code.binary operator x.code y.code).Fits := by
  have rank := fits.rank
  have rank' := fits'.rank
  refine ⟨fits.1, fits'.1, ?_, ?_⟩ <;> rcases operator.rank_cases with h | h <;> rw [h] <;> omega

theorem fits_splat (value : F32) (type : ValueType) : (splat value type).Fits :=
  ((Typed.fits_literal value).convert type).1

theorem fits_lowerNegate {x : Typed} (fits : x.Fits) : (lowerNegate x).Fits := by
  unfold lowerNegate
  split
  · exact Typed.fits_literal _
  · next unknown =>
    exact fits_paren ⟨fits.1, Code.rank_of_closed (fits.closed_of_unknown unknown)⟩

theorem fits_lowerBinary {operator : Operator} {x y : Typed} (fits : x.Fits) (fits' : y.Fits) :
    (lowerBinary operator x y).Fits := by
  unfold lowerBinary
  split
  · exact Typed.fits_literal _
  · exact fits_paren (fits_operation fits fits')

theorem name_builtin (function : Builtin) : Lexeme.isName function.name = true := by
  cases function <;> decide

theorem name_swizzle (components : Swizzle) : Lexeme.isName components.text = true := by
  cases components with
  | one first => cases first <;> decide
  | two first second => cases first <;> cases second <;> decide

theorem fits_lowerMisordered? {function : Builtin} {arguments : List Typed} {x : Typed}
    (fits : ∀ argument ∈ arguments, argument.Fits)
    (recast : lowerMisordered? function arguments = some x) : x.Fits := by
  cases recast_of_lowerMisordered? recast with
  | @clamp y _ _ _ highValue => exact (Typed.fits_literal highValue).convert y.type
  | @step _ _ y =>
    have inner := (fits y (by simp)).1
    exact Typed.fits_call (by decide) (by simp [inner, fits_splat])
  | @falling _ _ y lowValue highValue =>
    have inner := (fits y (by simp)).1
    have rising : (Typed.mk (.call "smoothstep" [splat highValue y.type, splat lowValue y.type,
        y.code]) y.type).Fits := Typed.fits_call (by decide) (by simp [inner, fits_splat])
    exact fits_paren (fits_operation ((Typed.fits_literal .one).convert y.type) rising)

theorem fits_lowerPlainCall (function : Builtin) {arguments : List Typed}
    (fits : ∀ argument ∈ arguments, argument.Fits) : (lowerPlainCall function arguments).Fits := by
  rcases lowerPlainCall_cases function arguments rfl with ⟨x, y, rfl, rfl, -, same⟩ | ⟨-, same⟩
  · rw [same]
    have first := (fits x (by simp)).convert .f32
    have second := (fits y (by simp)).convert .f32
    exact fits_paren (fits_operation first second)
  · rw [same]
    apply Typed.fits_call (name_builtin function)
    intro code member
    rcases List.mem_map.1 member with ⟨argument, given, rfl⟩
    exact ((fits argument given).convert _).1

theorem fits_lowerCall (function : Builtin) {arguments : List Typed}
    (fits : ∀ argument ∈ arguments, argument.Fits) : (lowerCall function arguments).Fits := by
  unfold lowerCall
  split
  · exact Typed.fits_literal _
  · cases recast : lowerMisordered? function arguments with
    | none => exact fits_lowerPlainCall function fits
    | some x => exact fits_lowerMisordered? fits recast

theorem fits_lowerSwizzle {x y : Typed} {components : Swizzle} (fits : x.Fits)
    (selected : lowerSwizzle x components = .ok y) : y.Fits := by
  unfold lowerSwizzle at selected
  split at selected
  · cases selected
  · next vector =>
    cases selected
    refine ⟨Code.fits_select fits.1 (fits.closed vector) (name_swizzle components), .inl ?_⟩
    exact Code.closed_select x.code components.text

/-- The code of a formula fits the grammar if the codes in its slots do. -/
theorem kept_fits : Kept fun x y => x = y ∧ x.Fits :=
  .alone Typed.fits_literal fits_lowerNegate (fun _ _ _ => fits_lowerBinary)
    (fun function _ _ => fits_lowerCall function) (fun _ _ _ => fits_lowerSwizzle)

theorem fits_compileScalar {environment : Environment} {text : String} {x : Typed}
    (slots : ∀ slot, (environment.get slot).Fits)
    (compiled : compileScalar environment text = .ok x) : x.Fits := by
  rcases except_bind_eq_ok.1 compiled with ⟨formula, parsed, compiled⟩
  rcases except_bind_eq_ok.1 compiled with ⟨y, lowered, same⟩
  cases same
  exact (kept_fits.holds slots (parse_saturated parsed) lowered).convert .f32

end Formula

end NodeShader
