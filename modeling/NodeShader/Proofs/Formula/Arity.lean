import NodeShader.Proofs.Formula.Grammar
import NodeShader.Proofs.Formula.Lowered

/-!
Formulas that were read call each function with as many arguments as it takes.
-/

namespace NodeShader

namespace Formula

theorem IsName.saturated {text : String} {formula : Formula} (name : IsName text formula) :
    formula.Saturated := by
  cases name <;> trivial

mutual

theorem IsFormula.saturated {levels : Nat} {lexemes : List Lexeme} {formula : Formula} :
    IsFormula levels lexemes formula → formula.Saturated
  | .sum whole => whole.saturated

theorem IsSum.saturated {levels : Nat} {lexemes : List Lexeme} {formula : Formula} :
    IsSum levels lexemes formula → formula.Saturated
  | .product single => single.saturated
  | .operation _ first second => ⟨first.saturated, second.saturated⟩

theorem IsProduct.saturated {levels : Nat} {lexemes : List Lexeme} {formula : Formula} :
    IsProduct levels lexemes formula → formula.Saturated
  | .signed single => single.saturated
  | .operation _ first second => ⟨first.saturated, second.saturated⟩

theorem IsSigned.saturated {levels : Nat} {lexemes : List Lexeme} {formula : Formula} :
    IsSigned levels lexemes formula → formula.Saturated
  | .minus inner | .plus inner => inner.saturated
  | .operand unsigned => unsigned.saturated

theorem IsOperand.saturated {levels : Nat} {lexemes : List Lexeme} {formula : Formula} :
    IsOperand levels lexemes formula → formula.Saturated
  | .primary plain => plain.saturated
  | .swizzle _ operand => operand.saturated

theorem IsPrimary.saturated {levels : Nat} {lexemes : List Lexeme} {formula : Formula} :
    IsPrimary levels lexemes formula → formula.Saturated
  | .number _ => trivial
  | .name known => known.saturated
  | .call given arity => ⟨arity, given.saturated⟩
  | .paren inner => inner.saturated

theorem AreArguments.saturated {levels : Nat} {lexemes : List Lexeme} {formulas : List Formula} :
    AreArguments levels lexemes formulas → AllSaturated formulas
  | .none => trivial
  | .some first rest => ⟨first.saturated, rest.saturated⟩

theorem AreMore.saturated {levels : Nat} {lexemes : List Lexeme} {formulas : List Formula} :
    AreMore levels lexemes formulas → AllSaturated formulas
  | .none => trivial
  | .next first rest => ⟨first.saturated, rest.saturated⟩

end

/-- A formula that was read calls each function with as many arguments as it takes. -/
theorem parse_saturated {text : String} {formula : Formula} (read : parse text = .ok formula) :
    formula.Saturated := by
  unfold parse at read
  split at read
  · next lexemes lexed => exact (IsFormula.of_ofLexemes read).saturated
  · cases read

theorem exists_lowered {environment : Environment} {text : String}
    (compiles : ((parse text).toOption.bind fun formula =>
      (lower environment formula).toOption).isSome = true) :
    ∃ formula x, parse text = .ok formula ∧ lower environment formula = .ok x := by
  cases parsed : parse text with
  | error error =>
    rw [parsed] at compiles
    cases compiles
  | ok formula =>
    rw [parsed] at compiles
    cases lowered : lower environment formula with
    | error error =>
      change ((lower environment formula).toOption).isSome = true at compiles
      rw [lowered] at compiles
      cases compiles
    | ok x => exact ⟨formula, x, rfl, lowered⟩

end Formula

end NodeShader
