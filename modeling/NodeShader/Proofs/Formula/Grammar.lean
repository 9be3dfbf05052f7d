import NodeShader.Formula.Parser
import NodeShader.Proofs.Compile.Outcome
import NodeShader.Proofs.Wgsl.Expression

/-!
The grammar of formulas, with the levels that may still be opened, and its agreement with the
parser in one direction: whatever is read derives from the grammar.
-/

namespace NodeShader

namespace Formula

/-- The identifiers of formulas. -/
inductive IsName : String → Formula → Prop where
  | a : IsName "a" (.slot .a)
  | b : IsName "b" (.slot .b)
  | time : IsName "time" (.slot .time)
  | uTime : IsName "u_time" (.slot .time)
  | uv : IsName "uv" (.slot .uv)
  | pi : IsName "pi" .pi
  | capitalPi : IsName "PI" .pi

mutual

/-- A formula with at most so many levels open at once, itself included. -/
inductive IsFormula : Nat → List Lexeme → Formula → Prop where
  | sum {levels lexemes formula} (whole : IsSum levels lexemes formula) :
      IsFormula (levels + 1) lexemes formula

/-- Products with loose operators between them, grouped to the left; in this and what follows the
number is that of the levels which may still be opened. -/
inductive IsSum : Nat → List Lexeme → Formula → Prop where
  | product {levels lexemes formula} (single : IsProduct levels lexemes formula) :
      IsSum levels lexemes formula
  | operation {levels lexemes others left right} {operator : Operator} (loose : operator.rank = 3)
      (first : IsSum levels lexemes left) (second : IsProduct levels others right) :
      IsSum levels (lexemes ++ .symbol operator.mark :: others) (.binary operator left right)

/-- Signed operands with tight operators between them, grouped to the left. -/
inductive IsProduct : Nat → List Lexeme → Formula → Prop where
  | signed {levels lexemes formula} (single : IsSigned levels lexemes formula) :
      IsProduct levels lexemes formula
  | operation {levels lexemes others left right} {operator : Operator} (tight : operator.rank = 2)
      (first : IsProduct levels lexemes left) (second : IsSigned levels others right) :
      IsProduct levels (lexemes ++ .symbol operator.mark :: others) (.binary operator left right)

/-- An operand after any number of signs, each of which takes a level. -/
inductive IsSigned : Nat → List Lexeme → Formula → Prop where
  | minus {levels lexemes formula} (inner : IsSigned levels lexemes formula) :
      IsSigned (levels + 1) (.symbol .minus :: lexemes) (.negate formula)
  | plus {levels lexemes formula} (inner : IsSigned levels lexemes formula) :
      IsSigned (levels + 1) (.symbol .plus :: lexemes) formula
  | operand {levels lexemes formula} (unsigned : IsOperand levels lexemes formula) :
      IsSigned levels lexemes formula

/-- A primary with component selections after it. -/
inductive IsOperand : Nat → List Lexeme → Formula → Prop where
  | primary {levels lexemes formula} (plain : IsPrimary levels lexemes formula) :
      IsOperand levels lexemes formula
  | swizzle {levels lexemes vector} (components : Swizzle)
      (operand : IsOperand levels lexemes vector) :
      IsOperand levels (lexemes ++ [.symbol .dot, .word components.text.toList])
        (.swizzle vector components)

/-- A number, an identifier, a call with as many arguments as the function takes, or a formula in
parentheses. -/
inductive IsPrimary : Nat → List Lexeme → Formula → Prop where
  | number {levels} (digits : List Char) :
      IsPrimary levels [.number digits] (.number (Lexeme.numberValue digits))
  | name {levels text formula} (known : IsName text formula) :
      IsPrimary levels [.word text.toList] formula
  | call {levels lexemes formulas} {function : Builtin}
      (given : AreArguments levels lexemes formulas) (arity : formulas.length = function.arity) :
      IsPrimary levels
        (.word function.name.toList :: .symbol .opening :: (lexemes ++ [.symbol .closing]))
        (.call function formulas)
  | paren {levels lexemes formula} (inner : IsFormula levels lexemes formula) :
      IsPrimary levels (.symbol .opening :: (lexemes ++ [.symbol .closing])) formula

/-- Formulas with commas between them. -/
inductive AreArguments : Nat → List Lexeme → List Formula → Prop where
  | none {levels} : AreArguments levels [] []
  | some {levels lexemes others formula formulas} (first : IsFormula levels lexemes formula)
      (rest : AreMore levels others formulas) :
      AreArguments levels (lexemes ++ others) (formula :: formulas)

/-- Formulas with a comma before each of them. -/
inductive AreMore : Nat → List Lexeme → List Formula → Prop where
  | none {levels} : AreMore levels [] []
  | next {levels lexemes others formula formulas} (first : IsFormula levels lexemes formula)
      (rest : AreMore levels others formulas) :
      AreMore levels (.symbol .comma :: (lexemes ++ others)) (formula :: formulas)

end

variable {levels : Nat} {formula : Formula}

/-! ### Tables -/

theorem ofName?_eq_some_iff {text : String} : ofName? text = some formula ↔ IsName text formula := by
  constructor
  · intro known
    unfold ofName? at known
    split at known <;> cases known <;> constructor
  · intro known
    cases known <;> rfl

theorem name_of_ofName? {name : String} {function : Builtin}
    (known : Builtin.ofName? name = some function) : function.name = name := by
  unfold Builtin.ofName? at known
  have same := List.find?_some known
  exact beq_iff_eq.1 same

theorem axis_of_ofChar? {c : Char} {axis : Axis} (known : Axis.ofChar? c = some axis) :
    c = axis.char := by
  unfold Axis.ofChar? at known
  split at known <;> cases known <;> rfl

theorem text_of_ofWord? {letters : List Char} {components : Swizzle}
    (known : Swizzle.ofWord? letters = some components) : letters = components.text.toList := by
  unfold Swizzle.ofWord? at known
  split at known
  · next first =>
    obtain ⟨axis, same, rfl⟩ := Option.map_eq_some_iff.1 known
    rw [Swizzle.text, String.toList_ofList, axis_of_ofChar? same]
  · next first second =>
    obtain ⟨axis, same, rest⟩ := Option.bind_eq_some_iff.1 known
    obtain ⟨axis', same', whole⟩ := Option.bind_eq_some_iff.1 rest
    cases whole
    rw [Swizzle.text, String.toList_ofList, axis_of_ofChar? same, axis_of_ofChar? same']
  · cases known

theorem ofWord?_text (components : Swizzle) :
    Swizzle.ofWord? components.text.toList = some components := by
  cases components with
  | one first => cases first <;> rfl
  | two first second => cases first <;> cases second <;> rfl

theorem mark_of_sumOperator? {lexeme : Lexeme} {operator : Operator}
    (known : sumOperator? lexeme = some operator) :
    lexeme = .symbol operator.mark ∧ operator.rank = 3 := by
  unfold sumOperator? at known
  split at known <;> cases known <;> exact ⟨rfl, rfl⟩

theorem mark_of_productOperator? {lexeme : Lexeme} {operator : Operator}
    (known : productOperator? lexeme = some operator) :
    lexeme = .symbol operator.mark ∧ operator.rank = 2 := by
  unfold productOperator? at known
  split at known <;> cases known <;> exact ⟨rfl, rfl⟩

/-! ### Soundness of the parser -/

section

variable {α : Type} {join : Operator → α → α → α} {operator? : Lexeme → Option Operator}
  {operand nested : Parser α} {G H : List Lexeme → α → Prop}

/-- What a parser reads and the lexemes it uses up for it obey a grammar. -/
def Obeys (parser : Parser α) (G : List Lexeme → α → Prop) : Prop :=
  ∀ ⦃input : List Lexeme⦄ ⦃parsed : Parsed α input⦄, parser input = .ok parsed →
    ∃ used, input = used ++ parsed.rest ∧ G used parsed.value

/-- A grammar of operands with operators between them, grouped to the left. -/
structure IsChain (join : Operator → α → α → α) (operator? : Lexeme → Option Operator)
    (G H : List Lexeme → α → Prop) : Prop where
  single : ∀ {used value}, G used value → H used value
  operation : ∀ {used more left right lexeme operator}, operator? lexeme = some operator →
    H used left → G more right → H (used ++ lexeme :: more) (join operator left right)

theorem chainTail_obeys (chained : IsChain join operator? G H) (obeys : Obeys operand G)
    {left : α} {used input : List Lexeme} (first : H used left)
    {result : { p : α × List Lexeme // p.2.length ≤ input.length }}
    (read : chainTail join operator? operand left input = .ok result) :
    ∃ more, input = more ++ result.1.2 ∧ H (used ++ more) result.1.1 := by
  induction left, input using chainTail.induct join operator? generalizing used with
  | case1 left =>
    rw [chainTail] at read
    cases read
    exact ⟨[], rfl, by rwa [List.append_nil]⟩
  | case2 left lexeme rest other =>
    rw [chainTail, other] at read
    cases read
    exact ⟨[], rfl, by rwa [List.append_nil]⟩
  | case3 left lexeme rest operator known ih =>
    rw [chainTail, known] at read
    obtain ⟨right, second, read⟩ := except_bind_eq_ok.1 read
    obtain ⟨all, further, same⟩ := except_bind_eq_ok.1 read
    cases same
    obtain ⟨more, split, derived⟩ := obeys second
    obtain ⟨later, split', derived'⟩ :=
      ih right (chained.operation known first derived) further
    refine ⟨lexeme :: (more ++ later), ?_, by simpa using derived'⟩
    calc
      lexeme :: rest = lexeme :: (more ++ right.rest) := congrArg (lexeme :: ·) split
      _ = lexeme :: (more ++ (later ++ all.1.2)) := congrArg (lexeme :: more ++ ·) split'
      _ = lexeme :: (more ++ later) ++ all.1.2 := by simp

theorem chain_obeys (chained : IsChain join operator? G H) (obeys : Obeys operand G) :
    Obeys (chain join operator? operand) H := by
  intro input parsed read
  obtain ⟨first, start, read⟩ := except_bind_eq_ok.1 read
  obtain ⟨all, further, same⟩ := except_bind_eq_ok.1 read
  cases same
  obtain ⟨used, split, derived⟩ := obeys start
  obtain ⟨more, split', derived'⟩ := chainTail_obeys chained obeys (chained.single derived) further
  refine ⟨used ++ more, ?_, derived'⟩
  calc
    input = used ++ first.rest := split
    _ = used ++ (more ++ all.1.2) := congrArg (used ++ ·) split'
    _ = used ++ more ++ all.1.2 := (List.append_assoc used more all.1.2).symm

theorem enclosed_obeys (obeys : Obeys nested G) :
    Obeys (enclosed nested) fun used value =>
      ∃ inner, used = inner ++ [.symbol .closing] ∧ G inner value := by
  intro input parsed read
  obtain ⟨inner, start, read⟩ := except_bind_eq_ok.1 read
  obtain ⟨used, split, derived⟩ := obeys start
  split at read
  · next after closed =>
    cases read
    refine ⟨used ++ [.symbol .closing], ?_, used, rfl, derived⟩
    calc
      input = used ++ inner.rest := split
      _ = used ++ .symbol .closing :: after := congrArg (used ++ ·) closed
      _ = used ++ [.symbol .closing] ++ after := by simp
  · cases read

end

theorem moreArguments_obeys {nested : Parser Formula} (obeys : Obeys nested (IsFormula levels))
    {input : List Lexeme}
    {result : { p : List Formula × List Lexeme // p.2.length ≤ input.length }}
    (read : moreArguments nested input = .ok result) :
    ∃ used, input = used ++ .symbol .closing :: result.1.2 ∧ AreMore levels used result.1.1 := by
  induction input using moreArguments.induct with
  | case1 rest ih =>
    rw [moreArguments] at read
    obtain ⟨next, first, read⟩ := except_bind_eq_ok.1 read
    obtain ⟨others, more, same⟩ := except_bind_eq_ok.1 read
    cases same
    obtain ⟨used, split, derived⟩ := obeys first
    obtain ⟨further, split', derived'⟩ := ih next more
    refine ⟨.symbol .comma :: (used ++ further), ?_, .next derived derived'⟩
    calc
      Lexeme.symbol .comma :: rest = .symbol .comma :: (used ++ next.rest) := congrArg _ split
      _ = .symbol .comma :: (used ++ (further ++ .symbol .closing :: others.1.2)) :=
        congrArg (.symbol .comma :: used ++ ·) split'
      _ = .symbol .comma :: (used ++ further) ++ .symbol .closing :: others.1.2 := by simp
  | case2 rest =>
    rw [moreArguments] at read
    cases read
    exact ⟨[], rfl, .none⟩
  | case3 found open_comma open_closing =>
    rw [moreArguments] at read
    · cases read
    · exact open_comma
    · exact open_closing

theorem arguments_obeys {nested : Parser Formula} (obeys : Obeys nested (IsFormula levels)) :
    Obeys (arguments nested) fun used formulas =>
      ∃ inner, used = inner ++ [.symbol .closing] ∧ AreArguments levels inner formulas := by
  intro input parsed read
  unfold arguments at read
  split at read
  · cases read
    exact ⟨[.symbol .closing], rfl, [], rfl, .none⟩
  · obtain ⟨first, start, read⟩ := except_bind_eq_ok.1 read
    obtain ⟨others, more, same⟩ := except_bind_eq_ok.1 read
    cases same
    obtain ⟨used, split, derived⟩ := obeys start
    obtain ⟨further, split', derived'⟩ := moreArguments_obeys obeys more
    refine ⟨used ++ further ++ [.symbol .closing], ?_, _, rfl, .some derived derived'⟩
    calc
      input = used ++ first.rest := split
      _ = used ++ (further ++ .symbol .closing :: others.1.2) := congrArg (used ++ ·) split'
      _ = used ++ further ++ [.symbol .closing] ++ others.1.2 := by simp

theorem namedCall_obeys {nested : Parser Formula} (obeys : Obeys nested (IsFormula levels))
    (letters : List Char) :
    Obeys (namedCall nested (String.ofList letters)) fun used formula =>
      IsPrimary levels (.word letters :: .symbol .opening :: used) formula := by
  intro input parsed read
  unfold namedCall at read
  split at read
  · cases read
  · next function known =>
    obtain ⟨given, start, read⟩ := except_bind_eq_ok.1 read
    split at read
    · next arity =>
      cases read
      obtain ⟨-, split, inner, rfl, derived⟩ := arguments_obeys obeys start
      have name : function.name.toList = letters := by
        rw [name_of_ofName? known, String.toList_ofList]
      exact ⟨_, split, name ▸ .call derived arity⟩
    · cases read

theorem primary_obeys {nested : Parser Formula} (obeys : Obeys nested (IsFormula levels)) :
    Obeys (primary nested) (IsPrimary levels) := by
  intro input parsed read
  unfold primary at read
  split at read
  · cases read
  · next digits rest =>
    cases read
    exact ⟨[.number digits], rfl, .number digits⟩
  · next letters rest =>
    obtain ⟨call, start, same⟩ := except_bind_eq_ok.1 read
    cases same
    obtain ⟨used, split, derived⟩ := namedCall_obeys obeys letters start
    exact ⟨_, congrArg (.word letters :: .symbol .opening :: ·) split, derived⟩
  · next letters rest _ =>
    split at read
    · next formula named =>
      cases read
      have name : IsPrimary levels [.word (String.ofList letters).toList] formula :=
        .name (ofName?_eq_some_iff.1 named)
      rw [String.toList_ofList] at name
      exact ⟨[.word letters], rfl, name⟩
    · cases read
  · obtain ⟨inner, start, same⟩ := except_bind_eq_ok.1 read
    cases same
    obtain ⟨-, split, inner, rfl, derived⟩ := enclosed_obeys obeys start
    exact ⟨_, congrArg (.symbol .opening :: ·) split, .paren derived⟩
  · cases read

theorem swizzles_obeys {vector : Formula} {used input : List Lexeme}
    (first : IsOperand levels used vector)
    {result : { p : Formula × List Lexeme // p.2.length ≤ input.length }}
    (read : swizzles vector input = .ok result) :
    ∃ more, input = more ++ result.1.2 ∧ IsOperand levels (used ++ more) result.1.1 := by
  induction vector, input using swizzles.induct generalizing used with
  | case1 vector => cases read
  | case2 vector letters rest components known ih =>
    simp only [swizzles, known] at read
    obtain ⟨all, further, same⟩ := except_bind_eq_ok.1 read
    cases same
    have selected := IsOperand.swizzle components first
    rw [← text_of_ofWord? known] at selected
    obtain ⟨more, split, derived⟩ := ih selected further
    refine ⟨.symbol .dot :: .word letters :: more, ?_, by simpa using derived⟩
    exact congrArg (.symbol .dot :: .word letters :: ·) split
  | case3 vector letters rest unknown =>
    simp only [swizzles, unknown] at read
    cases read
  | case4 vector found tail other =>
    cases found with
    | word letters => exact (other letters rfl).elim
    | number digits => cases read
    | symbol mark => cases read
  | case5 vector rest missing word symbol =>
    unfold swizzles at read
    split at read
    · exact (missing rfl).elim
    · exact (word _ _ rfl).elim
    · exact (symbol _ _ rfl).elim
    · cases read
      exact ⟨[], rfl, by rwa [List.append_nil]⟩

theorem operand_obeys {nested : Parser Formula} (obeys : Obeys nested (IsFormula levels)) :
    Obeys (operand nested) (IsOperand levels) := by
  intro input parsed read
  obtain ⟨first, start, read⟩ := except_bind_eq_ok.1 read
  obtain ⟨all, further, same⟩ := except_bind_eq_ok.1 read
  cases same
  obtain ⟨used, split, derived⟩ := primary_obeys obeys start
  obtain ⟨more, split', derived'⟩ := swizzles_obeys (.primary derived) further
  refine ⟨used ++ more, ?_, derived'⟩
  calc
    input = used ++ first.rest := split
    _ = used ++ (more ++ all.1.2) := congrArg (used ++ ·) split'
    _ = used ++ more ++ all.1.2 := (List.append_assoc used more all.1.2).symm

theorem products_chain (levels : Nat) :
    IsChain .binary productOperator? (IsSigned levels) (IsProduct levels) where
  single := .signed
  operation known first second := by
    obtain ⟨rfl, tight⟩ := mark_of_productOperator? known
    exact .operation tight first second

theorem sums_chain (levels : Nat) :
    IsChain .binary sumOperator? (IsProduct levels) (IsSum levels) where
  single := .product
  operation known first second := by
    obtain ⟨rfl, loose⟩ := mark_of_sumOperator? known
    exact .operation loose first second

theorem sum_obeys {signed : Parser Formula} (obeys : Obeys signed (IsSigned levels)) :
    Obeys (sum .binary signed) (IsFormula (levels + 1)) := by
  intro input parsed read
  have products := chain_obeys (products_chain levels) obeys
  obtain ⟨used, split, derived⟩ := chain_obeys (sums_chain levels) products read
  exact ⟨used, split, .sum derived⟩

theorem tooDeep_obeys {α : Type} (G : List Lexeme → α → Prop) : Obeys tooDeep G := by
  intro input parsed read
  cases read

/-- What a sign stands before was read a level further in. -/
def IsDeeper (levels : Nat) (used : List Lexeme) (formula : Formula) : Prop :=
  ∃ lower, levels = lower + 1 ∧ IsSigned lower used formula

theorem signedWith_obeys {inner : Parser Formula} (deeper : Obeys inner (IsDeeper levels))
    (nested : Obeys (sum .binary inner) (IsFormula levels)) :
    Obeys (signedWith inner) (IsSigned levels) := by
  intro input parsed read
  unfold signedWith at read
  split at read
  · obtain ⟨operand, start, same⟩ := except_bind_eq_ok.1 read
    cases same
    obtain ⟨used, split, lower, rfl, derived⟩ := deeper start
    exact ⟨_, congrArg (.symbol .minus :: ·) split, .minus derived⟩
  · obtain ⟨operand, start, same⟩ := except_bind_eq_ok.1 read
    cases same
    obtain ⟨used, split, lower, rfl, derived⟩ := deeper start
    exact ⟨_, congrArg (.symbol .plus :: ·) split, .plus derived⟩
  · obtain ⟨used, split, derived⟩ := operand_obeys nested read
    exact ⟨used, split, .operand derived⟩

theorem signed_obeys (levels : Nat) : Obeys (signed levels) (IsSigned levels) := by
  induction levels with
  | zero =>
    apply signedWith_obeys (tooDeep_obeys _)
    intro input parsed read
    cases read
  | succ levels ih =>
    apply signedWith_obeys _ (sum_obeys ih)
    intro input parsed read
    obtain ⟨used, split, derived⟩ := ih read
    exact ⟨used, split, levels, rfl, derived⟩

/-- What is read as a formula derives from the grammar. -/
theorem within_obeys (levels : Nat) : Obeys (within levels) (IsFormula levels) := by
  cases levels with
  | zero => exact tooDeep_obeys _
  | succ levels => exact sum_obeys (signed_obeys levels)

/-- Lexemes that are read to the end derive what is read. -/
theorem IsFormula.of_ofLexemes {lexemes : List Lexeme} (read : ofLexemes lexemes = .ok formula) :
    IsFormula maxLevels lexemes formula := by
  unfold ofLexemes at read
  split at read
  · cases read
  · obtain ⟨parsed, start, read⟩ := except_bind_eq_ok.1 read
    split at read
    · next all =>
      cases read
      obtain ⟨used, split, derived⟩ := within_obeys maxLevels start
      rw [all, List.append_nil] at split
      subst split
      exact derived
    · cases read

end Formula

end NodeShader
