import NodeShader.Floating.Text
import NodeShader.Text.Blank
import NodeShader.Wgsl.Code

/-!
Lexemes of formulas: each keeps the characters it was written with. Blanks stand between lexemes
and are dropped.
-/

namespace NodeShader

inductive Symbol where
  | plus
  | minus
  | star
  | slash
  | percent
  | opening
  | closing
  | comma
  | dot
  deriving DecidableEq, Repr

namespace Symbol

def char : Symbol → Char
  | .plus => '+'
  | .minus => '-'
  | .star => '*'
  | .slash => '/'
  | .percent => '%'
  | .opening => '('
  | .closing => ')'
  | .comma => ','
  | .dot => '.'

def ofChar? : Char → Option Symbol
  | '+' => some .plus
  | '-' => some .minus
  | '*' => some .star
  | '/' => some .slash
  | '%' => some .percent
  | '(' => some .opening
  | ')' => some .closing
  | ',' => some .comma
  | '.' => some .dot
  | _ => none

end Symbol

inductive Lexeme where
  | number (digits : List Char)
  | word (letters : List Char)
  | symbol (mark : Symbol)
  deriving DecidableEq, Repr

namespace Lexeme

/-- The characters of the lexeme in its source. -/
def source : Lexeme → List Char
  | .number digits => digits
  | .word letters => letters
  | .symbol mark => [mark.char]

/-- The number that the digits of a lexeme denote. -/
def numberValue (digits : List Char) : F32 := (Floating.read? digits).getD (.zero false)

def describe : Lexeme → String
  | .number digits => "number " ++ (numberValue digits).plain
  | .word letters => "`" ++ String.ofList letters ++ "`"
  | .symbol mark => "`" ++ mark.char.toString ++ "`"

/-- The sign at the start of a text, if there is one, and what follows. -/
def splitSign : List Char → List Char × List Char
  | '+' :: rest => (['+'], rest)
  | '-' :: rest => (['-'], rest)
  | text => ([], text)

/-- The exponent at the start of a text and what follows; a letter `e` without a digit after it is
no exponent. -/
def splitExponent (text : List Char) : List Char × List Char :=
  match text with
  | letter :: rest =>
    if letter = 'e' ∨ letter = 'E' then
      let (sign, rest) := splitSign rest
      if (rest.head?.map Char.isDigit).getD false then
        (letter :: sign ++ rest.takeWhile Char.isDigit, rest.dropWhile Char.isDigit)
      else ([], text)
    else ([], text)
  | [] => ([], [])

/-- The point at the start of a text with the digits after it, and what follows. -/
def splitFraction (text : List Char) : List Char × List Char :=
  match text with
  | '.' :: rest => ('.' :: rest.takeWhile Char.isDigit, rest.dropWhile Char.isDigit)
  | _ => ([], text)

/-- The number at the start of a text and what follows. -/
def splitNumber (text : List Char) : List Char × List Char :=
  let (fraction, rest) := splitFraction (text.dropWhile Char.isDigit)
  let (exponent, rest) := splitExponent rest
  (text.takeWhile Char.isDigit ++ fraction ++ exponent, rest)

/-- Numbers start with a digit, or with a point and a digit. -/
def startsNumber : List Char → Bool
  | '.' :: next :: _ => next.isDigit
  | first :: _ => first.isDigit
  | [] => false

def startsWord (c : Char) : Bool := c.isAlpha || c == '_'

theorem splitSign_append (text : List Char) : (splitSign text).1 ++ (splitSign text).2 = text := by
  unfold splitSign
  split <;> rfl

theorem splitExponent_append (text : List Char) :
    (splitExponent text).1 ++ (splitExponent text).2 = text := by
  cases text with
  | nil => rfl
  | cons letter rest =>
    simp only [splitExponent]
    split
    · split
      · simp only [List.cons_append, List.append_assoc, List.takeWhile_append_dropWhile,
          splitSign_append]
      · rfl
    · rfl

theorem splitFraction_append (text : List Char) :
    (splitFraction text).1 ++ (splitFraction text).2 = text := by
  unfold splitFraction
  split
  · rw [List.cons_append, List.takeWhile_append_dropWhile]
  · rfl

theorem splitNumber_append (text : List Char) :
    (splitNumber text).1 ++ (splitNumber text).2 = text := by
  simp only [splitNumber]
  rw [List.append_assoc, splitExponent_append, List.append_assoc, splitFraction_append,
    List.takeWhile_append_dropWhile]

theorem splitNumber_ne_nil {text : List Char} (h : startsNumber text = true) :
    (splitNumber text).1 ≠ [] := by
  unfold startsNumber at h
  split at h
  · next next rest =>
    have : Char.isDigit '.' = false := by decide
    simp [splitNumber, splitFraction, List.takeWhile_cons, List.dropWhile_cons, this]
  · simp [splitNumber, h]
  · cases h

theorem splitNumber_shorter {text : List Char} (h : startsNumber text = true) :
    (splitNumber text).2.length < text.length := by
  have taken := List.length_pos_iff.2 (splitNumber_ne_nil h)
  have whole := congrArg List.length (splitNumber_append text)
  simp only [List.length_append] at whole
  omega

theorem startsWord_isWordChar {c : Char} (h : startsWord c = true) : Code.isWordChar c = true := by
  simp only [startsWord, Bool.or_eq_true] at h
  simp only [Code.isWordChar, Char.isAlphanum, Bool.or_eq_true]
  exact h.imp_left .inl

theorem dropWord_shorter {c : Char} {rest : List Char} (h : startsWord c = true) :
    ((c :: rest).dropWhile Code.isWordChar).length < (c :: rest).length := by
  rw [List.dropWhile_cons, if_pos (startsWord_isWordChar h)]
  exact Nat.lt_succ_of_le (List.dropWhile_suffix _).length_le

/-- Why a text has no lexemes. -/
inductive Fault where
  /-- A character that no lexeme has. -/
  | foreign (character : Char)
  /-- The characters of a number that do not denote one. -/
  | unreadable (digits : List Char)
  deriving DecidableEq, Repr

def Fault.message : Fault → String
  | .foreign character => "unexpected character `" ++ character.toString ++ "`"
  | .unreadable digits => "bad number `" ++ String.ofList digits ++ "`: invalid float literal"

/-- The lexemes of a text, or the first fault in it. -/
def all (text : List Char) : Except Fault (List Lexeme) :=
  match text with
  | [] => .ok []
  | c :: rest =>
    if isBlank c then all rest
    else if _number : startsNumber (c :: rest) then do
      let split := splitNumber (c :: rest)
      if (Floating.read? split.1 : Option F32).isNone then throw (.unreadable split.1)
      return .number split.1 :: (← all split.2)
    else if _word : startsWord c then do
      return .word ((c :: rest).takeWhile Code.isWordChar) ::
        (← all ((c :: rest).dropWhile Code.isWordChar))
    else match Symbol.ofChar? c with
      | some mark => do return .symbol mark :: (← all rest)
      | none => .error (.foreign c)
termination_by text.length
decreasing_by
  · simp
  · exact splitNumber_shorter _number
  · exact dropWord_shorter _word
  · simp

end Lexeme

end NodeShader
