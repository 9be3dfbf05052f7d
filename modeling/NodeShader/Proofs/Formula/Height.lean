import NodeShader.Proofs.Formula.Derivation
import NodeShader.Proofs.Formula.Judgement

/-!
How deep the trees of formulas get. The levels of the parser limit the steps to the side on the way
down, into a right operand, behind a sign or into an argument. Operations and component selections
one after the other put trees on the left of each other without taking a level, so that the height
of a formula is limited with the lengths of such chains only.
-/

namespace NodeShader

namespace Formula

mutual

/-- The number of formulas one inside the other, which is how deep a recursion over them goes. -/
def height : Formula → Nat
  | .number _ | .pi | .slot _ => 1
  | .negate operand => height operand + 1
  | .binary _ left right => max (height left) (height right) + 1
  | .call _ arguments => heightAll arguments + 1
  | .swizzle vector _ => height vector + 1

def heightAll : List Formula → Nat
  | [] => 0
  | argument :: rest => max (height argument) (heightAll rest)

end

/-- The length of the chain that ends with a formula: the operations and component selections one
after the other, each on what is on the left of the next. -/
def spine : Formula → Nat
  | .binary _ left _ => spine left + 1
  | .swizzle vector _ => spine vector + 1
  | _ => 0

mutual

/-- How often a way down into a formula may leave a chain. -/
def bends : Formula → Nat
  | .number _ | .pi | .slot _ => 0
  | .negate operand => bends operand + 1
  | .binary _ left right => max (bends left) (bends right + 1)
  | .call _ arguments => bendsAll arguments
  | .swizzle vector _ => bends vector

def bendsAll : List Formula → Nat
  | [] => 0
  | argument :: rest => max (bends argument + 1) (bendsAll rest)

end

/-! ### What the levels limit -/

theorem IsName.bends_eq {text : String} {formula : Formula} (name : IsName text formula) :
    formula.bends = 0 := by
  cases name <;> rfl

mutual

/-- A level is worth three steps to the side: from a sum to a product, from there to a signed operand,
and into the argument of a call. -/
theorem IsFormula.bends_lt {levels : Nat} {lexemes : List Lexeme} {formula : Formula} :
    IsFormula levels lexemes formula → formula.bends < 3 * levels
  | .sum whole => Nat.lt_succ_of_le whole.bends_le

theorem IsSum.bends_le {levels : Nat} {lexemes : List Lexeme} {formula : Formula} :
    IsSum levels lexemes formula → formula.bends ≤ 3 * levels + 2
  | .product single => Nat.le_succ_of_le single.bends_le
  | .operation _ first second => max_le first.bends_le (Nat.succ_le_succ second.bends_le)

theorem IsProduct.bends_le {levels : Nat} {lexemes : List Lexeme} {formula : Formula} :
    IsProduct levels lexemes formula → formula.bends ≤ 3 * levels + 1
  | .signed single => Nat.le_succ_of_le single.bends_le
  | .operation _ first second => max_le first.bends_le (Nat.succ_le_succ second.bends_le)

theorem IsSigned.bends_le {levels : Nat} {lexemes : List Lexeme} {formula : Formula} :
    IsSigned levels lexemes formula → formula.bends ≤ 3 * levels
  | .minus inner => Nat.le_succ_of_le (Nat.le_succ_of_le (Nat.succ_le_succ inner.bends_le))
  | .plus inner => inner.bends_le.trans (Nat.mul_le_mul_left 3 (Nat.le_succ _))
  | .operand unsigned => unsigned.bends_le

theorem IsOperand.bends_le {levels : Nat} {lexemes : List Lexeme} {formula : Formula} :
    IsOperand levels lexemes formula → formula.bends ≤ 3 * levels
  | .primary plain => plain.bends_le
  | .swizzle _ operand => operand.bends_le

theorem IsPrimary.bends_le {levels : Nat} {lexemes : List Lexeme} {formula : Formula} :
    IsPrimary levels lexemes formula → formula.bends ≤ 3 * levels
  | .number _ => Nat.zero_le _
  | .name known => known.bends_eq.trans_le (Nat.zero_le _)
  | .call given _ => given.bendsAll_le
  | .paren inner => Nat.le_of_lt inner.bends_lt

theorem AreArguments.bendsAll_le {levels : Nat} {lexemes : List Lexeme} {formulas : List Formula} :
    AreArguments levels lexemes formulas → bendsAll formulas ≤ 3 * levels
  | .none => Nat.zero_le _
  | .some first rest => max_le first.bends_lt rest.bendsAll_le

theorem AreMore.bendsAll_le {levels : Nat} {lexemes : List Lexeme} {formulas : List Formula} :
    AreMore levels lexemes formulas → bendsAll formulas ≤ 3 * levels
  | .none => Nat.zero_le _
  | .next first rest => max_le first.bends_lt rest.bendsAll_le

end

/-! ### Height from chains and bends -/

variable {run : Nat}

theorem mem_parts_self (formula : Formula) : formula ∈ formula.parts := by
  cases formula <;> exact List.mem_cons_self

/-- What stands below a step to the side, with a chain of its own on top. -/
theorem side_height {height spine bends : Nat} (below : height ≤ spine + 1 + bends * (run + 1))
    (chain : spine ≤ run) : height ≤ (bends + 1) * (run + 1) :=
  calc
    height ≤ spine + 1 + bends * (run + 1) := below
    _ ≤ run + 1 + bends * (run + 1) := by gcongr
    _ = (bends + 1) * (run + 1) := by ring

mutual

/-- A way down into a formula goes along its own chain first, and along another one after each step to
the side. -/
theorem height_le : (formula : Formula) → (∀ part ∈ formula.parts, part.spine ≤ run) →
    formula.height ≤ formula.spine + 1 + formula.bends * (run + 1)
  | .number _, _ | .pi, _ | .slot _, _ => by simp [height, spine, bends]
  | .negate operand, chains => by
    have inner := (List.forall_mem_cons.1 chains).2
    have below := side_height (height_le operand inner) (inner operand operand.mem_parts_self)
    simp only [height, spine, bends]
    omega
  | .binary _ left right, chains => by
    obtain ⟨first, second⟩ := List.forall_mem_append.1 (List.forall_mem_cons.1 chains).2
    have along := height_le left first
    have aside := side_height (height_le right second) (second right right.mem_parts_self)
    have more : left.bends * (run + 1) ≤ max left.bends (right.bends + 1) * (run + 1) :=
      Nat.mul_le_mul_right _ (le_max_left ..)
    have more' : (right.bends + 1) * (run + 1) ≤ max left.bends (right.bends + 1) * (run + 1) :=
      Nat.mul_le_mul_right _ (le_max_right ..)
    simp only [height, spine, bends]
    omega
  | .call _ arguments, chains => by
    have below := heightAll_le arguments (List.forall_mem_cons.1 chains).2
    simp only [height, spine, bends]
    omega
  | .swizzle vector _, chains => by
    have along := height_le vector (List.forall_mem_cons.1 chains).2
    simp only [height, spine, bends]
    omega

theorem heightAll_le : (formulas : List Formula) → (∀ part ∈ partsAll formulas, part.spine ≤ run) →
    heightAll formulas ≤ bendsAll formulas * (run + 1)
  | [], _ => Nat.zero_le _
  | formula :: rest, chains => by
    obtain ⟨first, others⟩ := List.forall_mem_append.1 chains
    have aside := side_height (height_le formula first) (first formula formula.mem_parts_self)
    exact max_le (aside.trans (Nat.mul_le_mul_right _ (le_max_left ..)))
      ((heightAll_le rest others).trans (Nat.mul_le_mul_right _ (le_max_right ..)))

end

/-! ### Formulas that are read -/

/-- The levels limit how often a way down into a formula that was read leaves a chain, and with the
length of its chains they limit its height. -/
theorem parse_height {text : String} {formula : Formula} (read : parse text = .ok formula) :
    formula.bends < 3 * maxLevels ∧
      ∀ run, (∀ part ∈ formula.parts, part.spine ≤ run) →
        formula.height ≤ 3 * maxLevels * (run + 1) := by
  unfold parse at read
  split at read
  · next lexemes lexed =>
    have bends := (IsFormula.of_ofLexemes read).bends_lt
    refine ⟨bends, fun run chains => ?_⟩
    calc
      formula.height ≤ (formula.bends + 1) * (run + 1) :=
        side_height (height_le formula chains) (chains formula formula.mem_parts_self)
      _ ≤ 3 * maxLevels * (run + 1) := Nat.mul_le_mul_right _ bends
  · cases read

/-- Signs, arguments and a right operand to turn into, and a chain of two on the left of the top. -/
def winding : String := "max(a + b * time - 1, -(uv.yx.x)) / 2 * pi"

theorem winding_height : ∃ formula, parse winding = .ok formula ∧
    (∀ part ∈ formula.parts, part.spine ≤ 2) ∧ formula.bends < 3 * maxLevels ∧
      formula.height ≤ 3 * maxLevels * (2 + 1) := by
  have short : ((parse winding).toOption.map fun formula =>
      formula.parts.all fun part => decide (part.spine ≤ 2)) = some true := by decide +kernel
  cases read : parse winding with
  | error error =>
    rw [read] at short
    cases short
  | ok formula =>
    rw [read] at short
    have chains : ∀ part ∈ formula.parts, part.spine ≤ 2 := by
      intro part member
      exact of_decide_eq_true (List.all_eq_true.1 (Option.some.inj short) part member)
    obtain ⟨bends, height⟩ := parse_height read
    exact ⟨formula, rfl, chains, bends, height 2 chains⟩

/-! ### Chains without end -/

/-- As many operations one after the other as wanted, of one operator on the first input. -/
def chained (operator : Operator) : Nat → Formula
  | 0 => .slot .a
  | count + 1 => .binary operator (chained operator count) (.slot .a)

def chainedText (operator : Operator) : Nat → List Char
  | 0 => ['a']
  | count + 1 => chainedText operator count ++ [' ', operator.symbol, ' ', 'a']

def chainedLexemes (operator : Operator) : Nat → List Lexeme
  | 0 => [.word ['a']]
  | count + 1 => chainedLexemes operator count ++ [.symbol operator.mark, .word ['a']]

theorem all_chainedText (operator : Operator) (count : Nat) {rest : List Char}
    {others : List Lexeme} (ends : ∀ c ∈ rest.head?, Code.isWordChar c = false)
    (lexed : Lexeme.all rest = .ok others) :
    Lexeme.all (chainedText operator count ++ rest) =
      .ok (chainedLexemes operator count ++ others) := by
  have name : Lexeme.isName "a" = true := by decide
  induction count generalizing rest others with
  | zero => exact Lexeme.all_text name ends lexed
  | succ count ih =>
    have between := Lexeme.all_operator operator (Lexeme.all_text name ends lexed)
    rw [chainedText, chainedLexemes, List.append_assoc, List.append_assoc]
    exact ih (fun c first => by cases first; rfl) between

theorem isSum_chained (operator : Operator) (count levels : Nat) :
    IsSum levels (chainedLexemes operator count) (chained operator count) := by
  have single : IsSigned levels [.word "a".toList] (.slot .a) := .operand (.primary (.name .a))
  rcases operator.rank_cases with tight | loose
  · have products : IsProduct levels (chainedLexemes operator count) (chained operator count) := by
      induction count with
      | zero => exact .signed single
      | succ count ih => exact .operation tight ih single
    exact .product products
  · induction count with
    | zero => exact .product (.signed single)
    | succ count ih => exact .operation loose ih (.signed single)

/-- A chain is read, whatever its length. -/
theorem parse_chained (operator : Operator) (count : Nat) :
    parse (String.ofList (chainedText operator count)) = .ok (chained operator count) := by
  have lexed : Lexeme.all (chainedText operator count ++ []) =
      .ok (chainedLexemes operator count ++ []) :=
    all_chainedText operator count (by simp) (by rw [Lexeme.all])
  have derived : IsFormula maxLevels (chainedLexemes operator count) (chained operator count) :=
    .sum (isSum_chained operator count _)
  rw [List.append_nil, List.append_nil] at lexed
  rw [parse, String.toList_ofList, lexed]
  exact ofLexemes_eq_ok derived.reads_all

theorem height_chained (operator : Operator) (count : Nat) :
    (chained operator count).height = count + 1 := by
  induction count with
  | zero => rfl
  | succ count ih => rw [chained, height, ih, height, max_eq_left (Nat.le_add_left 1 count)]

/-- The levels do not limit the height: sums that are read get as high as one likes. -/
theorem height_unbounded :
    ¬ ∃ bound, ∀ text formula, parse text = .ok formula → formula.height ≤ bound := by
  rintro ⟨bound, bounded⟩
  have height := bounded _ _ (parse_chained .add bound)
  rw [height_chained] at height
  exact absurd height (Nat.not_succ_le_self bound)

end Formula

end NodeShader
