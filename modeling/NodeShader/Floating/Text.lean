import NodeShader.Floating.Decimal

/-!
Numbers as text: the numerals that are read, and the two notations that are written.
-/

namespace NodeShader

/-- The number that decimal digits denote. -/
def digitsValue (digits : List Char) : Nat :=
  digits.foldl (fun value digit => 10 * value + (digit.toNat - '0'.toNat)) 0

/-- An integer with an optional sign and at least one digit, and nothing after it. -/
def signedInteger? (text : List Char) : Option Int :=
  match text with
  | '-' :: digits => if isInteger digits then some (-(digitsValue digits : Int)) else none
  | '+' :: digits => if isInteger digits then some (digitsValue digits) else none
  | digits => if isInteger digits then some (digitsValue digits) else none
where
  isInteger (digits : List Char) : Bool := !digits.isEmpty && digits.all Char.isDigit

namespace Decimal

/-- What may follow the digits of a numeral: nothing, or a letter `e` and an integer. -/
def exponent? : List Char → Option Int
  | [] => some 0
  | 'e' :: rest | 'E' :: rest => signedInteger? rest
  | _ => none

/-- An unsigned numeral: digits with an optional point, at least one digit, and an optional
exponent. -/
def read? (text : List Char) : Option Decimal :=
  let whole := text.takeWhile Char.isDigit
  let (fraction, rest) := match text.dropWhile Char.isDigit with
    | '.' :: rest => (rest.takeWhile Char.isDigit, rest.dropWhile Char.isDigit)
    | rest => ([], rest)
  if whole.isEmpty && fraction.isEmpty then none
  else (exponent? rest).map fun exponent =>
    ⟨digitsValue (whole ++ fraction), exponent - fraction.length⟩

end Decimal

namespace Floating

variable {f : Format}

/-- An unsigned number: a numeral or, in letters of either case, infinity or not-a-number. -/
def readMagnitude? (negative : Bool) (text : List Char) : Option (Floating f) :=
  match String.ofList (text.map Char.toLower) with
  | "inf" | "infinity" => some (.infinite negative)
  | "nan" => some .nan
  | _ => (Decimal.read? text).map (Decimal.toFloating negative)

/-- The number a text denotes, with an optional sign; no blanks, and the text must be all of it. -/
def read? (text : List Char) : Option (Floating f) :=
  match text with
  | '-' :: rest => readMagnitude? true rest
  | '+' :: rest => readMagnitude? false rest
  | rest => readMagnitude? false rest

def sign (negative : Bool) : String := if negative then "-" else ""

/-- Plain notation, never with an exponent. -/
def plain : Floating f → String
  | .nan => "NaN"
  | .infinite negative => sign negative ++ "inf"
  | .finite negative rank => sign negative ++ (Decimal.shortest f rank).positional

/-- Notation that shows a fractional number: positional with a place after the point when the
first digit stands among the sixteen before the point or the four after it, else scientific. -/
def fractional : Floating f → String
  | .nan => "NaN"
  | .infinite negative => sign negative ++ "inf"
  | .finite negative rank =>
    let d := Decimal.shortest f rank
    sign negative ++
      if -3 ≤ d.point ∧ d.point ≤ 16 then
        if d.exponent < 0 then d.positional else d.positional ++ ".0"
      else d.scientific

end Floating

end NodeShader
