import NodeShader.Json.Number

/-!
Tokens of JSON text. A string or numeral that is well formed but denotes nothing (a lone half of a
surrogate pair, a number out of range) is a token without a value.
-/

namespace NodeShader

inductive Token where
  | openObject
  | closeObject
  | openArray
  | closeArray
  | comma
  | colon
  | null
  | bool (value : Bool)
  | number (value : Option Number)
  | string (value : Option String)
  deriving Repr

namespace Token

def hexDigit? (c : Char) : Option Nat :=
  if c.isDigit then some (c.toNat - '0'.toNat)
  else if 'a' ≤ c ∧ c ≤ 'f' then some (c.toNat - 'a'.toNat + 10)
  else if 'A' ≤ c ∧ c ≤ 'F' then some (c.toNat - 'A'.toNat + 10)
  else none

/-- The code point of a letter after a backslash. -/
def escape? : Char → Option Nat
  | '"' => some 0x22
  | '\\' => some 0x5C
  | '/' => some 0x2F
  | 'b' => some 0x08
  | 'f' => some 0x0C
  | 'n' => some 0x0A
  | 'r' => some 0x0D
  | 't' => some 0x09
  | _ => none

/-- The code points up to the closing quote, newest first in `read`; escaped surrogates count as
code points of their own. -/
def stringCodes? (read : List Nat) : List Char → Option (List Nat × List Char)
  | [] => none
  | '"' :: rest => some (read.reverse, rest)
  | '\\' :: 'u' :: a :: b :: c :: d :: rest => do
    let a ← hexDigit? a
    let b ← hexDigit? b
    let c ← hexDigit? c
    let d ← hexDigit? d
    stringCodes? ((((a * 16 + b) * 16 + c) * 16 + d) :: read) rest
  | '\\' :: letter :: rest => do stringCodes? ((← escape? letter) :: read) rest
  | c :: rest => if c.toNat < 0x20 then none else stringCodes? (c.toNat :: read) rest

/-- The text of code points, with surrogate pairs joined; none when one stands alone. -/
def joinSurrogates? : List Nat → Option (List Char)
  | [] => some []
  | code :: rest =>
    if 0xD800 ≤ code ∧ code < 0xDC00 then
      match rest with
      | low :: rest =>
        if 0xDC00 ≤ low ∧ low < 0xE000 then
          (joinSurrogates? rest).map
            (Char.ofNat (0x10000 + (code - 0xD800) * 0x400 + (low - 0xDC00)) :: ·)
        else none
      | [] => none
    else if 0xDC00 ≤ code ∧ code < 0xE000 then none
    else (joinSurrogates? rest).map (Char.ofNat code :: ·)

theorem stringCodes?_le {text rest : List Char} {read codes : List Nat}
    (h : stringCodes? read text = some (codes, rest)) : rest.length ≤ text.length := by
  fun_induction stringCodes? read text with
  | case1 => cases h
  | case2 =>
    simp only [Option.some.injEq, Prod.mk.injEq] at h
    simp [h.2]
  | case3 read a b c d after ih =>
    simp only [Option.bind_eq_bind, Option.bind_eq_some_iff] at h
    obtain ⟨_, _, _, _, _, _, _, _, last⟩ := h
    have := ih _ _ _ _ last
    simp only [List.length_cons]
    omega
  | case4 read letter after _ ih =>
    simp only [Option.bind_eq_bind, Option.bind_eq_some_iff] at h
    obtain ⟨_, _, last⟩ := h
    have := ih _ last
    simp only [List.length_cons]
    omega
  | case5 => cases h
  | case6 read c after _ _ _ _ ih =>
    have := ih h
    simp only [List.length_cons]
    omega

def isSpace (c : Char) : Bool := c == ' ' || c == '\n' || c == '\t' || c == '\r'

/-- The token at the start of a text that starts with no space. -/
def scan? : List Char → Option (Token × List Char)
  | '{' :: rest => some (.openObject, rest)
  | '}' :: rest => some (.closeObject, rest)
  | '[' :: rest => some (.openArray, rest)
  | ']' :: rest => some (.closeArray, rest)
  | ',' :: rest => some (.comma, rest)
  | ':' :: rest => some (.colon, rest)
  | '"' :: rest =>
    (stringCodes? [] rest).map fun (codes, rest) =>
      (.string ((joinSurrogates? codes).map String.ofList), rest)
  | 'n' :: 'u' :: 'l' :: 'l' :: rest => some (.null, rest)
  | 't' :: 'r' :: 'u' :: 'e' :: rest => some (.bool true, rest)
  | 'f' :: 'a' :: 'l' :: 's' :: 'e' :: rest => some (.bool false, rest)
  | text => (Numeral.scan? text).map fun (numeral, rest) => (.number numeral.number?, rest)

theorem scan?_shorter {text rest : List Char} {token : Token}
    (h : scan? text = some (token, rest)) : rest.length < text.length := by
  unfold scan? at h
  split at h
  case h_7 =>
    obtain ⟨_, read, equal⟩ := Option.map_eq_some_iff.1 h
    simp only [Prod.mk.injEq] at equal
    exact Nat.lt_succ_of_le (equal.2 ▸ stringCodes?_le read)
  case h_11 =>
    obtain ⟨_, read, equal⟩ := Option.map_eq_some_iff.1 h
    simp only [Prod.mk.injEq] at equal
    exact equal.2 ▸ Numeral.scan?_shorter read
  all_goals
    simp only [Option.some.injEq, Prod.mk.injEq] at h
    simp only [← h.2, List.length_cons]
    omega

/-- The tokens of a text. -/
def all? (text : List Char) : Option (List Token) :=
  match text with
  | [] => some []
  | c :: rest =>
    if isSpace c then all? rest
    else match _scanned : scan? (c :: rest) with
      | none => none
      | some (token, rest) => (all? rest).map (token :: ·)
termination_by text.length
decreasing_by
  · simp
  · exact scan?_shorter _scanned

end Token

end NodeShader
