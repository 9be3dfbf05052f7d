import NodeShader.Compile.Node
import NodeShader.Proofs.Compile.Identifiers
import NodeShader.Proofs.Compile.Inputs
import NodeShader.Proofs.Formula.Fitting

/-!
The code of every node fits the grammar of shader expressions if the codes in its slots do.
-/

namespace NodeShader

namespace Identifiers

variable {identifier : String}

theorem IsProper.isName (proper : IsProper identifier) : Lexeme.isName identifier = true := by
  rcases proper with ⟨others, text, word⟩
  refine Lexeme.isName_iff.2 ⟨'n', '_' :: others, text, by decide, ?_⟩
  simpa [Code.isWordChar] using word

theorem IsProper.ne_uv (proper : IsProper identifier) : identifier ≠ "uv" := by
  intro same
  subst same
  rcases proper with ⟨others, text, -⟩
  exact absurd text (by simp)

theorem IsProper.ne_time (proper : IsProper identifier) : identifier ≠ "u_time" := by
  intro same
  subst same
  rcases proper with ⟨others, text, -⟩
  exact absurd text (by simp)

end Identifiers

/-- The code that a node contributes. -/
def Emission.code : Emission → Code
  | .value typed => typed.code
  | .color code => code

/-- Inputs whose codes may stand as operands. -/
def Inputs.Fit (inputs : Inputs) : Prop := ∀ slot x, inputs.find? slot = some x → x.Fits

namespace Node

variable {inputs : Inputs}

theorem fits_getOr (fit : inputs.Fit) (slot : Nat) (type : ValueType) {default : Typed}
    (fits : default.Fits) : (inputs.getOr slot type default).Fits := by
  refine Typed.Fits.convert ?_ type
  change ((inputs.find? slot).getD default).Fits
  cases found : inputs.find? slot with
  | none => exact fits
  | some x => exact fit slot x found

theorem fits_get (fit : inputs.Fit) (slot : Nat) (type : ValueType) : (inputs.get slot type).Fits :=
  fits_getOr fit slot type (Typed.fits_zero type)

theorem fits_environment (fit : inputs.Fit) (slot : Slot) : ((environment inputs).get slot).Fits := by
  cases slot with
  | a => exact fits_get fit 0 .f32
  | b => exact fits_get fit 1 .f32
  | time => exact Typed.fits_name (by decide) .f32
  | uv => exact Typed.fits_name (by decide) .vec2f

theorem fits_formula (fit : inputs.Fit) {node : Node} {options : Options} {value : Typed}
    (made : (node.formula inputs options).result = .ok value) : value.Fits := by
  rcases formula_cases made with compiled | rfl
  · exact Formula.fits_compileScalar (fits_environment fit) compiled
  · exact Typed.fits_zero .f32

theorem fits_scalar (fit : inputs.Fit) (slot : Nat) (default : F32) :
    (scalar inputs slot default).Fits := by
  unfold scalar
  dsimp only
  split
  · exact Typed.fits_literal _
  · exact fits_getOr fit slot .f32 (Typed.fits_literal default)

theorem fits_atLeastMinimal {edge : Typed} (fits : edge.Fits) : (atLeastMinimal edge).Fits := by
  unfold atLeastMinimal
  split
  · exact Typed.fits_literal _
  · exact Typed.fits_call (by decide) (by simp [fits.1, Code.Fits])

theorem fits_folded (operator : Operator) {left right : Typed} (fits : left.Fits)
    (fits' : right.Fits) : (folded operator left right).Fits := by
  unfold folded
  split
  · trivial
  · exact Formula.fits_operation fits fits'

theorem fits_circle (fit : inputs.Fit) (node : Node) : (node.circle inputs).code.Fits := by
  have radius := fits_scalar fit 0 (node.finiteParam "radius" (.ofDecimal 25 (-2)))
  have edge := fits_atLeastMinimal (fits_scalar fit 1 (node.finiteParam "edge" (.ofDecimal 2 (-2))))
  have name : uvCode.code.Fits := (by decide : Lexeme.isName "uv" = true)
  have middle : (Code.call "vec2f" [.number 5 (-1), .number 5 (-1)]).Fits :=
    ⟨by decide, trivial, trivial, trivial⟩
  have distance : (Code.call "distance" [uvCode.code,
      .call "vec2f" [.number 5 (-1), .number 5 (-1)]]).Fits :=
    ⟨by decide, name, middle, trivial⟩
  refine ⟨trivial, ⟨by decide, fits_folded .sub radius edge, fits_folded .add radius edge, distance,
    trivial⟩, ?_, Nat.zero_lt_succ 2⟩
  exact Nat.le_trans (Code.rank_literal (.ofDecimal 1 0)) (by decide)

theorem fits_componentwise (fit : inputs.Fit) (operator : Operator) :
    (componentwise operator inputs).code.Fits :=
  Formula.fits_operation (fits_get fit 0 .vec3f) (fits_get fit 1 .vec3f)

theorem fits_saturated (fit : inputs.Fit) : (saturated inputs).code.Fits :=
  ⟨by decide, (fits_get fit 0 .vec3f).1, ⟨by decide, trivial, trivial⟩, ⟨by decide, trivial, trivial⟩,
    trivial⟩

/-- What a node contributes fits the grammar. -/
theorem fits_compile (fit : inputs.Fit) {node : Node} {options : Options} {emission : Emission}
    (compiled : (node.compile inputs options).result = .ok emission) : emission.code.Fits := by
  cases kind : node.kind <;> simp only [compile, kind] at compiled
  case expr =>
    rw [Outcome.result_bind] at compiled
    rcases except_bind_eq_ok.1 compiled with ⟨value, made, same⟩
    cases same
    exact (fits_formula fit made).1
  all_goals cases compiled
  case uv => exact (by decide : Lexeme.isName "uv" = true)
  case time => exact (by decide : Lexeme.isName "u_time" = true)
  case constFloat => trivial
  case circleField => exact fits_circle fit node
  case multiply => exact fits_componentwise fit .mul
  case add => exact fits_componentwise fit .add
  case saturate => exact fits_saturated fit
  case outputFinal => exact (fits_get fit 0 .vec3f).1
  case unknown => exact (Typed.fits_zero .vec3f).1

end Node

end NodeShader
