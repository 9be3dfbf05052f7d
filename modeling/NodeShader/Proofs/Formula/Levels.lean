import NodeShader.Proofs.Formula.Parsing

/-!
Levels of formulas. With fewer levels the parser reads what it reads with more of them, unless it
fails because the formula is nested too deeply.
-/

namespace NodeShader

namespace Formula

variable {α β : Type}

/-- The same result, or that of a formula that is nested too deeply. -/
def Cut (x y : Except FormulaError α) : Prop := x = .error .tooDeep ∨ x = y

theorem Cut.refl (x : Except FormulaError α) : Cut x x := .inr rfl

theorem Cut.bind {x y : Except FormulaError α} {f g : α → Except FormulaError β} (first : Cut x y)
    (rest : ∀ value, Cut (f value) (g value)) : Cut (x >>= f) (y >>= g) := by
  rcases first with deep | same
  · rw [deep]
    exact .inl rfl
  · rw [same]
    cases y with
    | error => exact .inr rfl
    | ok value => exact rest value

/-- A parser that reads what another does, unless a formula is nested too deeply for it. -/
def Shallower (parser other : Parser α) : Prop := ∀ input, Cut (parser input) (other input)

theorem tooDeep_shallower (parser : Parser α) : Shallower tooDeep parser := fun _ => .inl rfl

theorem Shallower.reads {parser other : Parser α} {input rest : List Lexeme} {value : α}
    (shallower : Shallower parser other) (read : Reads other input value rest)
    (within : parser input ≠ .error .tooDeep) : Reads parser input value rest := by
  obtain ⟨shorter, read⟩ := read
  exact ⟨shorter, ((shallower input).resolve_left within).trans read⟩

section

variable {join : Operator → α → α → α} {operator? : Lexeme → Option Operator}
  {operand operand' nested nested' : Parser α}

theorem chainTail_cut (shallower : Shallower operand operand') (left : α) (input : List Lexeme) :
    Cut (chainTail join operator? operand left input)
      (chainTail join operator? operand' left input) := by
  induction left, input using chainTail.induct join operator? with
  | case1 left =>
    rw [chainTail, chainTail]
    exact .refl _
  | case2 left lexeme rest other =>
    rw [chainTail, chainTail, other]
    exact .refl _
  | case3 left lexeme rest operator known ih =>
    rw [chainTail, chainTail, known]
    exact (shallower rest).bind fun right => (ih right).bind fun all => .refl _

theorem chain_shallower (shallower : Shallower operand operand') :
    Shallower (chain join operator? operand) (chain join operator? operand') := fun input =>
  (shallower input).bind fun first => (chainTail_cut shallower first.value first.rest).bind fun _ =>
    .refl _

theorem sum_shallower (shallower : Shallower operand operand') :
    Shallower (sum join operand) (sum join operand') :=
  chain_shallower (chain_shallower shallower)

theorem moreArguments_cut (shallower : Shallower nested nested') (input : List Lexeme) :
    Cut (moreArguments nested input) (moreArguments nested' input) := by
  induction input using moreArguments.induct with
  | case1 rest ih =>
    rw [moreArguments, moreArguments]
    exact (shallower rest).bind fun next => (ih next).bind fun others => .refl _
  | case2 rest =>
    rw [moreArguments, moreArguments]
    exact .refl _
  | case3 found open_comma open_closing =>
    rw [moreArguments, moreArguments]
    · exact .refl _
    all_goals assumption

theorem arguments_shallower (shallower : Shallower nested nested') :
    Shallower (arguments nested) (arguments nested') := by
  intro input
  unfold arguments
  split
  · exact .refl _
  · exact (shallower _).bind fun first => (moreArguments_cut shallower first.rest).bind fun _ => .refl _

theorem enclosed_shallower (shallower : Shallower nested nested') :
    Shallower (enclosed nested) (enclosed nested') := fun input =>
  (shallower input).bind fun _ => .refl _

end

variable {nested nested' inner inner' : Parser Formula}

theorem namedCall_shallower (shallower : Shallower nested nested') (name : String) :
    Shallower (namedCall nested name) (namedCall nested' name) := by
  intro input
  unfold namedCall
  split
  · exact .refl _
  · exact (arguments_shallower shallower input).bind fun _ => .refl _

theorem primary_shallower (shallower : Shallower nested nested') :
    Shallower (primary nested) (primary nested') := by
  intro input
  unfold primary
  split
  · exact .refl _
  · exact .refl _
  · exact (namedCall_shallower shallower _ _).bind fun _ => .refl _
  · exact .refl _
  · exact (enclosed_shallower shallower _).bind fun _ => .refl _
  · exact .refl _

theorem operand_shallower (shallower : Shallower nested nested') :
    Shallower (operand nested) (operand nested') := fun input =>
  (primary_shallower shallower input).bind fun _ => .refl _

theorem signedWith_shallower (shallower : Shallower inner inner') :
    Shallower (signedWith inner) (signedWith inner') := by
  intro input
  unfold signedWith
  split
  · exact (shallower _).bind fun _ => .refl _
  · exact (shallower _).bind fun _ => .refl _
  · exact operand_shallower (sum_shallower shallower) _

/-- What is read after a sign, a level further in. -/
def deeper : (levels : Nat) → Parser Formula
  | 0 => tooDeep
  | levels + 1 => signed levels

theorem signed_eq (levels : Nat) : signed levels = signedWith (deeper levels) := by
  cases levels <;> rfl

theorem within_eq (levels : Nat) : within levels = sum .binary (deeper levels) := by
  cases levels <;> rfl

theorem deeper_shallower {fewer levels : Nat} (at_most : fewer ≤ levels) :
    Shallower (deeper fewer) (deeper levels) := by
  induction fewer generalizing levels with
  | zero => exact tooDeep_shallower _
  | succ fewer ih =>
    obtain ⟨lower, rfl⟩ := Nat.exists_eq_add_of_lt at_most
    change Shallower (signed fewer) (signed (fewer + lower))
    rw [signed_eq, signed_eq]
    exact signedWith_shallower (ih (Nat.le_add_right _ _))

/-- Formulas are read alike with fewer levels, unless they are nested too deeply. -/
theorem within_shallower {fewer levels : Nat} (at_most : fewer ≤ levels) :
    Shallower (within fewer) (within levels) := by
  rw [within_eq, within_eq]
  exact sum_shallower (deeper_shallower at_most)

end Formula

end NodeShader
