import NodeShader.Proofs.Floating.ReadBack
import NodeShader.Proofs.Formula.Lexing

/-!
Shader expressions as a reader understands them, and the codes whose text is lexed piece by piece.
-/

namespace NodeShader

/-- An expression as it is read: parentheses only group, and the minus of a negative literal is an
operation. -/
inductive Expression where
  | literal (digits : List Char)
  | name (text : String)
  | negate (operand : Expression)
  | binary (operator : Operator) (left right : Expression)
  | call (function : String) (arguments : List Expression)
  | member (vector : Expression) (components : String)

/-- Whether the literal of a number has a minus, and its numeral. -/
def F32.numeral (x : F32) : Bool × List Char :=
  match x.literalText.toList with
  | '-' :: digits => (true, digits)
  | digits => (false, digits)

theorem F32.literalText_toList (x : F32) : FloatNumeral x.numeral.2 ∧
    x.literalText.toList = if x.numeral.1 then '-' :: x.numeral.2 else x.numeral.2 := by
  rcases Floating.fractional_numeral x.isFinite_orZero with ⟨digits, numeral, text | text⟩
  · have same : x.literalText.toList = digits := text
    rcases numeral.head with ⟨c, others, rfl, digit⟩
    have positive : x.numeral = (false, c :: others) := by
      unfold F32.numeral
      rw [same]
      split
      · next minus =>
        cases minus
        cases digit
      · rfl
    rw [positive]
    exact ⟨numeral, same⟩
  · have same : x.literalText.toList = '-' :: digits := text
    have negative : x.numeral = (true, digits) := by
      unfold F32.numeral
      rw [same]
      rfl
    rw [negative]
    exact ⟨numeral, same⟩

/-- The numeral of a literal is read as a number, which with the sign of the literal is the number it
stands for. -/
theorem F32.numeral_value (x : F32) :
    (Floating.read? x.numeral.2 : Option F32) = some (Lexeme.numberValue x.numeral.2) ∧
      (if x.numeral.1 then -Lexeme.numberValue x.numeral.2
        else Lexeme.numberValue x.numeral.2) = x.orZero := by
  have back := Floating.read?_fractional x.isFinite_orZero
  obtain ⟨numeral, text⟩ := x.literalText_toList
  obtain ⟨c, others, same, digit⟩ := numeral.head
  have magnitude : (Floating.read? x.numeral.2 : Option F32) =
      (Decimal.read? x.numeral.2).map (Decimal.toFloating false) := by
    rw [same, Floating.read?_digit digit, Floating.readMagnitude?_digit digit]
  change Floating.read? x.literalText.toList = some x.orZero at back
  rw [text] at back
  unfold Lexeme.numberValue
  split at back
  · next negative =>
    have signed : (Decimal.read? x.numeral.2).map (Decimal.toFloating true) = some x.orZero := by
      rw [← back, same]
      exact (Floating.readMagnitude?_digit digit others true).symm
    obtain ⟨d, read, value⟩ := Option.map_eq_some_iff.1 signed
    rw [magnitude, read, if_pos negative, ← value]
    exact ⟨rfl, Floating.neg_ofRank false _⟩
  · next positive =>
    rw [back, if_neg positive]
    exact ⟨rfl, rfl⟩

theorem F32.isFinite_numberValue (x : F32) :
    (Lexeme.numberValue x.numeral.2).isFinite = true := by
  have finite := x.isFinite_orZero
  rw [← x.numeral_value.2] at finite
  split at finite
  · cases magnitude : Lexeme.numberValue x.numeral.2 with
    | finite => rfl
    | nan =>
      rw [magnitude] at finite
      cases finite
    | infinite =>
      rw [magnitude] at finite
      cases finite
  · exact finite

namespace Operator

def mark : Operator → Symbol
  | .add => .plus
  | .sub => .minus
  | .mul => .star
  | .div => .slash
  | .rem => .percent

/-- How loosely an operator binds; signs bind tighter than any operator, operands tighter still. -/
def rank : Operator → Nat
  | .mul | .div | .rem => 2
  | .add | .sub => 3

theorem rank_cases (operator : Operator) : operator.rank = 2 ∨ operator.rank = 3 := by
  cases operator <;> decide

end Operator

namespace Code

mutual

/-- What a code means when it is read as it is meant. -/
def expression : Code → Expression
  | .literal value =>
    if value.numeral.1 then .negate (.literal value.numeral.2) else .literal value.numeral.2
  | .name text => .name text
  | .paren inner => expression inner
  | .negate inner => .negate (expression inner)
  | .binary operator left right => .binary operator (expression left) (expression right)
  | .call function arguments => .call function (expressions arguments)
  | .member inner components => .member (expression inner) components

def expressions : List Code → List Expression
  | [] => []
  | code :: rest => expression code :: expressions rest

end

mutual

/-- The lexemes of the text of a code. -/
def lexemes : Code → List Lexeme
  | .literal value =>
    if value.numeral.1 then [.symbol .minus, .number value.numeral.2]
    else [.number value.numeral.2]
  | .name text => [.word text.toList]
  | .paren inner => .symbol .opening :: (lexemes inner ++ [.symbol .closing])
  | .negate inner => .symbol .minus :: lexemes inner
  | .binary operator left right => lexemes left ++ .symbol operator.mark :: lexemes right
  | .call function arguments =>
    .word function.toList :: .symbol .opening :: (lexemesAll arguments ++ [.symbol .closing])
  | .member inner components => lexemes inner ++ [.symbol .dot, .word components.toList]

/-- The lexemes of arguments with the commas between them. -/
def lexemesAll : List Code → List Lexeme
  | [] => []
  | code :: rest => lexemes code ++ lexemesMore rest

def lexemesMore : List Code → List Lexeme
  | [] => []
  | code :: rest => .symbol .comma :: (lexemes code ++ lexemesMore rest)

end

/-- How loosely a code binds. -/
def rank : Code → Nat
  | .literal value => if value.numeral.1 then 1 else 0
  | .name _ | .paren _ | .call _ _ | .member _ _ => 0
  | .negate _ => 1
  | .binary operator _ _ => operator.rank

/-- Codes that a component can be taken of as they stand. -/
def IsClosed : Code → Prop
  | .name _ | .paren _ | .call _ _ | .member _ _ => True
  | .literal _ | .negate _ | .binary _ _ _ => False

theorem rank_of_closed {code : Code} (closed : code.IsClosed) : code.rank = 0 := by
  cases code <;> first | rfl | cases closed

mutual

/-- Codes with parentheses wherever the grammar asks for them. -/
def Fits : Code → Prop
  | .literal _ => True
  | .name text => Lexeme.isName text = true
  | .paren inner => Fits inner
  | .negate inner => Fits inner ∧ inner.rank = 0
  | .binary operator left right =>
    Fits left ∧ Fits right ∧ left.rank ≤ operator.rank ∧ right.rank < operator.rank
  | .call function arguments => Lexeme.isName function = true ∧ FitsAll arguments
  | .member inner components => Fits inner ∧ inner.IsClosed ∧ Lexeme.isName components = true

def FitsAll : List Code → Prop
  | [] => True
  | code :: rest => Fits code ∧ FitsAll rest

end

/-- What may follow the text of a code: nothing that would go on with its last lexeme. -/
def Ends (code : Code) (rest : List Char) : Prop :=
  ∀ c ∈ rest.head?, isWordChar c = false ∧ (c = '.' → code.IsClosed)

theorem Ends.numeral {code : Code} {rest : List Char} (ends : code.Ends rest)
    (literal : ¬ code.IsClosed) : Lexeme.EndsNumeral rest :=
  fun c first => ⟨(ends c first).1, fun dot => literal ((ends c first).2 dot)⟩

theorem Ends.of_open {code inner : Code} {rest : List Char} (ends : code.Ends rest)
    (literal : ¬ code.IsClosed) : inner.Ends rest :=
  fun c first => ⟨(ends c first).1, fun dot => absurd ((ends c first).2 dot) literal⟩

theorem ends_symbol (code : Code) (mark : Symbol) (other : mark ≠ .dot) (rest : List Char) :
    code.Ends (mark.char :: rest) := by
  intro c given
  cases given
  refine ⟨by cases mark <;> decide, fun dot => ?_⟩
  cases mark <;> contradiction

theorem ends_blank (code : Code) (rest : List Char) : code.Ends (' ' :: rest) := by
  intro c given
  cases given
  exact ⟨by decide, fun dot => absurd dot (by decide)⟩

end Code

namespace Lexeme

variable {rest : List Char} {others : List Lexeme}

theorem all_mark (mark : Symbol) (other : mark ≠ .dot) (lexed : all rest = .ok others) :
    all (mark.char :: rest) = .ok (.symbol mark :: others) := by
  rw [all_symbol mark fun dot => absurd dot other, lexed]
  rfl

theorem all_space (lexed : all rest = .ok others) : all (' ' :: rest) = .ok others := by
  rw [all_blank (by decide), lexed]

theorem all_text {text : String} (name : isName text = true)
    (ends : ∀ c ∈ rest.head?, Code.isWordChar c = false) (lexed : all rest = .ok others) :
    all (text.toList ++ rest) = .ok (.word text.toList :: others) := by
  rw [all_name name ends, lexed]
  rfl

theorem all_member {components : String} (name : isName components = true)
    (ends : ∀ c ∈ rest.head?, Code.isWordChar c = false) (lexed : all rest = .ok others) :
    all ('.' :: (components.toList ++ rest)) =
      .ok (.symbol .dot :: .word components.toList :: others) := by
  have single : ∀ c ∈ (components.toList ++ rest).head?, c.isDigit = false := by
    rcases isName_iff.1 name with ⟨letter, letters, same, starts, -⟩
    rw [same]
    intro c given
    cases given
    exact not_isDigit_of_startsWord starts
  have dot := all_symbol .dot fun _ => single
  rw [all_text name ends lexed] at dot
  exact dot

theorem all_literal (value : F32) (ends : EndsNumeral rest) (lexed : all rest = .ok others) :
    all (value.literalText.toList ++ rest) = .ok ((Code.literal value).lexemes ++ others) := by
  rcases value.literalText_toList with ⟨numeral, text⟩
  have digits := all_numeral numeral ends
  rw [lexed] at digits
  rw [text, Code.lexemes]
  split
  · exact all_mark .minus (by decide) digits
  · exact digits

theorem all_operator (operator : Operator) (lexed : all rest = .ok others) :
    all (' ' :: operator.symbol :: ' ' :: rest) = .ok (.symbol operator.mark :: others) := by
  have same : operator.symbol = operator.mark.char := by cases operator <;> rfl
  rw [same]
  exact all_space (all_mark _ (by cases operator <;> decide) (all_space lexed))

mutual

/-- The text of a code is lexed to the lexemes of its parts. -/
theorem all_render : (code : Code) → code.Fits → ∀ {rest : List Char} {others : List Lexeme},
    code.Ends rest → all rest = .ok others →
      all (code.render.toList ++ rest) = .ok (code.lexemes ++ others)
  | .literal value, _, _, _, ends, lexed => all_literal value (ends.numeral id) lexed
  | .name text, name, _, _, ends, lexed => all_text name (fun c first => (ends c first).1) lexed
  | .paren inner, fits, rest, others, _, lexed => by
    have closed := all_mark .closing (by decide) lexed
    have inside := all_render inner fits (inner.ends_symbol .closing (by decide) rest) closed
    have opened := all_mark .opening (by decide) inside
    simpa [Code.render, Code.lexemes, Symbol.char] using opened
  | .negate inner, fits, rest, others, ends, lexed => by
    have inside := all_render inner fits.1 (ends.of_open id) lexed
    have signed := all_mark .minus (by decide) inside
    simpa [Code.render, Code.lexemes, Symbol.char] using signed
  | .binary operator left right, fits, rest, others, ends, lexed => by
    have second := all_render right fits.2.1 (ends.of_open id) lexed
    have between := all_operator operator second
    have first := all_render left fits.1 (left.ends_blank _) between
    simpa [Code.render, Code.lexemes] using first
  | .call function arguments, fits, rest, others, _, lexed => by
    have closed := all_mark .closing (by decide) lexed
    have inside := all_renderAll arguments fits.2 rest closed
    have opened := all_mark .opening (by decide) inside
    have whole := all_text fits.1 (by intro c first; cases first; rfl) opened
    simpa [Code.render, Code.lexemes, Symbol.char] using whole
  | .member inner components, fits, rest, others, ends, lexed => by
    have selected := all_member fits.2.2 (fun c first => (ends c first).1) lexed
    have dotted : inner.Ends ('.' :: components.toList ++ rest) := by
      intro c first
      cases first
      exact ⟨rfl, fun _ => fits.2.1⟩
    have vector := all_render inner fits.1 dotted selected
    simpa [Code.render, Code.lexemes] using vector

theorem all_renderAll : (codes : List Code) → Code.FitsAll codes →
    ∀ (rest : List Char) {others : List Lexeme}, all (')' :: rest) = .ok others →
      all ((", ".intercalate (Code.renderAll codes)).toList ++ ')' :: rest) =
        .ok (Code.lexemesAll codes ++ others)
  | [], _, rest, others, lexed => by
    simpa [Code.renderAll, Code.lexemesAll] using lexed
  | [code], fits, rest, others, lexed => by
    have only := all_render code fits.1 (code.ends_symbol .closing (by decide) rest) lexed
    simpa [Code.renderAll, Code.lexemesAll, Code.lexemesMore, Symbol.char] using only
  | code :: next :: codes, fits, rest, others, lexed => by
    have after := all_renderAll (next :: codes) fits.2 rest lexed
    have comma := all_mark .comma (by decide) (all_space after)
    have first := all_render code fits.1 (code.ends_symbol .comma (by decide) _) comma
    simpa [Code.renderAll, Code.lexemesAll, Code.lexemesMore, Symbol.char,
      String.intercalate_cons_cons] using first

end

/-- The text of a code that fits the grammar is lexed to the end. -/
theorem all_whole {code : Code} (fits : code.Fits) :
    all code.render.toList = .ok code.lexemes := by
  have ends : code.Ends [] := by simp [Code.Ends]
  have lexed := all_render code fits ends (by rw [all])
  rwa [List.append_nil, List.append_nil] at lexed

end Lexeme

end NodeShader
