import NodeShader.Floating.Arithmetic
import NodeShader.Floating.Text

/-!
Numbers of JSON documents. A numeral without point and exponent that fits 64 bits is an integer;
any other is a fraction, built from the leading digits that fit 64 bits and scaled by powers of
ten, each scaling rounded.
-/

namespace NodeShader

inductive Number where
  | integer (value : Int)
  | fraction (value : F64)
  deriving DecidableEq, Repr

/-- The parts of a numeral as written. -/
structure Numeral where
  negative : Bool
  whole : List Char
  fraction : Option (List Char)
  exponent : Option (Bool × List Char)
  deriving Repr

namespace Numeral

/-- Digits, of which there is at least one. -/
def digits? (text : List Char) : Option (List Char × List Char) :=
  let digits := text.takeWhile Char.isDigit
  if digits.isEmpty then none else some (digits, text.dropWhile Char.isDigit)

/-- The digits before the point: a zero stands alone. -/
def whole? : List Char → Option (List Char × List Char)
  | '0' :: rest => some (['0'], rest)
  | text => digits? text

def fraction? : List Char → Option (Option (List Char) × List Char)
  | '.' :: rest => (digits? rest).map fun (digits, rest) => (some digits, rest)
  | text => some (none, text)

def signedDigits? (text : List Char) : Option ((Bool × List Char) × List Char) :=
  match text with
  | '-' :: rest => (digits? rest).map fun (digits, rest) => ((true, digits), rest)
  | '+' :: rest => (digits? rest).map fun (digits, rest) => ((false, digits), rest)
  | rest => (digits? rest).map fun (digits, rest) => ((false, digits), rest)

def exponent? : List Char → Option (Option (Bool × List Char) × List Char)
  | 'e' :: rest | 'E' :: rest => (signedDigits? rest).map fun (part, rest) => (some part, rest)
  | text => some (none, text)

def unsigned? (negative : Bool) (text : List Char) : Option (Numeral × List Char) := do
  let (whole, rest) ← whole? text
  let (fraction, rest) ← fraction? rest
  let (exponent, rest) ← exponent? rest
  some (⟨negative, whole, fraction, exponent⟩, rest)

/-- The numeral at the start of a text, and what follows it. -/
def scan? : List Char → Option (Numeral × List Char)
  | '-' :: rest => unsigned? true rest
  | text => unsigned? false text

theorem digits?_shorter {text digits rest : List Char} (h : digits? text = some (digits, rest)) :
    rest.length < text.length := by
  simp only [digits?] at h
  split at h
  · cases h
  · next nonempty =>
    simp only [Option.some.injEq, Prod.mk.injEq] at h
    have parts := congrArg List.length
      (List.takeWhile_append_dropWhile (p := Char.isDigit) (l := text))
    have positive : 0 < (text.takeWhile Char.isDigit).length :=
      List.length_pos_iff.2 (by simpa using nonempty)
    simp only [List.length_append, h.2] at parts
    omega

theorem whole?_shorter {text digits rest : List Char} (h : whole? text = some (digits, rest)) :
    rest.length < text.length := by
  unfold whole? at h
  split at h
  · simp only [Option.some.injEq, Prod.mk.injEq] at h
    simp [← h.2]
  · exact digits?_shorter h

theorem fraction?_le {text rest : List Char} {part : Option (List Char)}
    (h : fraction? text = some (part, rest)) : rest.length ≤ text.length := by
  unfold fraction? at h
  split at h
  · obtain ⟨⟨digits, after⟩, read, equal⟩ := Option.map_eq_some_iff.1 h
    have := digits?_shorter read
    simp only [Prod.mk.injEq] at equal
    simp only [← equal.2, List.length_cons]
    omega
  · simp only [Option.some.injEq, Prod.mk.injEq] at h
    simp [h.2]

theorem signedDigits?_le {text rest : List Char} {part : Bool × List Char}
    (h : signedDigits? text = some (part, rest)) : rest.length ≤ text.length := by
  unfold signedDigits? at h
  split at h <;>
  · obtain ⟨⟨digits, after⟩, read, equal⟩ := Option.map_eq_some_iff.1 h
    have := digits?_shorter read
    simp only [Prod.mk.injEq] at equal
    simp only [← equal.2, List.length_cons] at *
    omega

theorem exponent?_le {text rest : List Char} {part : Option (Bool × List Char)}
    (h : exponent? text = some (part, rest)) : rest.length ≤ text.length := by
  have shorter {text : List Char}
      (h : (signedDigits? text).map (fun (part, rest) => (some part, rest)) = some (part, rest)) :
      rest.length ≤ text.length := by
    obtain ⟨_, read, equal⟩ := Option.map_eq_some_iff.1 h
    simp only [Prod.mk.injEq] at equal
    exact equal.2 ▸ signedDigits?_le read
  unfold exponent? at h
  split at h
  · exact Nat.le_succ_of_le (shorter h)
  · exact Nat.le_succ_of_le (shorter h)
  · simp only [Option.some.injEq, Prod.mk.injEq] at h
    simp [h.2]

theorem unsigned?_shorter {negative : Bool} {text rest : List Char} {numeral : Numeral}
    (h : unsigned? negative text = some (numeral, rest)) : rest.length < text.length := by
  simp only [unsigned?, Option.bind_eq_bind, Option.bind_eq_some_iff, Prod.exists] at h
  obtain ⟨_, _, hw, _, _, hf, _, _, he, last⟩ := h
  simp only [Option.some.injEq, Prod.mk.injEq] at last
  have := whole?_shorter hw
  have := fraction?_le hf
  have := exponent?_le he
  rw [← last.2]
  omega

theorem scan?_shorter {text rest : List Char} {numeral : Numeral}
    (h : scan? text = some (numeral, rest)) : rest.length < text.length := by
  unfold scan? at h
  split at h
  · have := unsigned?_shorter h
    simp only [List.length_cons]
    omega
  · exact unsigned?_shorter h

/-- Appends digits to a significand as long as it fits 64 bits; tells how many did not fit. -/
def extend (significand : Nat) : List Char → Nat × Nat
  | [] => (significand, 0)
  | digit :: rest =>
    let longer := 10 * significand + (digit.toNat - '0'.toNat)
    if longer < UInt64.size then extend longer rest else (significand, rest.length + 1)

def powerOfTen (exponent : Nat) : F64 := .ofInt (Nat.pow 10 exponent)

/-- Divides by a power of ten, in steps of the largest one there is. -/
def scaleDown (value : F64) (exponent : Nat) : F64 :=
  if exponent ≤ 308 then value / powerOfTen exponent
  else if value.same (.zero false) then value
  else scaleDown (value / powerOfTen 308) (exponent - 308)
termination_by exponent

/-- A significand times a power of ten; none when it is out of range. -/
def scaled? (significand : Nat) (exponent : Int) : Option F64 :=
  let value : F64 := .ofInt significand
  match exponent with
  | .ofNat raised =>
    if raised ≤ 308 then
      let value := value * powerOfTen raised
      if value.isFinite then some value else none
    else if value.same (.zero false) then some value
    else none
  | .negSucc lowered => some (scaleDown value (lowered + 1))

def signed (numeral : Numeral) (value : F64) : F64 := if numeral.negative then -value else value

/-- The number of a numeral; none when it is out of range. -/
def number? (numeral : Numeral) : Option Number :=
  let (significand, beyond) := extend 0 numeral.whole
  match numeral.fraction, numeral.exponent with
  | none, none =>
    if beyond = 0 then
      if !numeral.negative then some (.integer significand)
      else if 0 < significand ∧ 2 * significand ≤ UInt64.size then some (.integer (-significand))
      else some (.fraction (-.ofInt significand))
    else (scaled? significand beyond).map (.fraction ∘ numeral.signed)
  | fraction, exponent =>
    let places := fraction.getD []
    let (significand, unread) := extend significand places
    let shift : Int := beyond - (places.length - unread : Nat)
    let (lowered, digits) := exponent.getD (false, [])
    let power := digitsValue digits
    if 2 * power < UInt32.size then
      (scaled? significand (if lowered then shift - power else shift + power)).map
        (.fraction ∘ numeral.signed)
    else if significand ≠ 0 && !lowered then none
    else some (.fraction (.zero numeral.negative))

end Numeral

end NodeShader
