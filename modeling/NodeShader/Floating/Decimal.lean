import NodeShader.Floating.Rounding

/-!
Decimals and binary numbers: the number nearest to a decimal, and the shortest decimal that reads
back to a number.
-/

namespace NodeShader

/-- The magnitude `digits * 10 ^ exponent`. -/
structure Decimal where
  digits : Nat
  exponent : Int
  deriving DecidableEq, Repr

namespace Decimal

/-- The rank nearest to a decimal. Exponents that put it past the largest or below half the least
positive magnitude are answered first, so that no power of ten grows without need. -/
def rank (f : Format) (d : Decimal) : Nat :=
  if d.digits = 0 then 0 else
  match d.exponent with
  | .ofNat raised =>
    if Nat.pow 2 f.exponentBits ≤ raised then f.ranks
    else f.nearestQuotient (d.digits * Nat.pow 10 raised * f.one) 1
  | .negSucc lowered =>
    if d.digits.log2 + f.unitExponent + 2 ≤ 3 * lowered then 0
    else f.nearestQuotient (d.digits * f.one) (Nat.pow 10 (lowered + 1))

def toFloating {f : Format} (negative : Bool) (d : Decimal) : Floating f :=
  .ofRank negative (d.rank f)

/-- The same magnitude without zeros at the end of its digits; zero is the digit alone. -/
def trim (d : Decimal) : Decimal :=
  if zero : d.digits = 0 then ⟨0, 0⟩
  else if d.digits % 10 = 0 then trim ⟨d.digits / 10, d.exponent + 1⟩
  else d
termination_by d.digits
decreasing_by exact Nat.div_lt_self (Nat.pos_of_ne_zero zero) (by decide)

/-- The magnitude of a rank, digit for digit. -/
def exact (f : Format) (rank : Nat) : Decimal :=
  ⟨f.units rank * Nat.pow 5 f.unitExponent, -f.unitExponent⟩

/-- The nearer of the two decimals around `d` that end `dropped` digits earlier, of those that
read back; of two equally near, the upper. -/
def shortened? (readsBack : Decimal → Bool) (d : Decimal) (dropped : Nat) : Option Decimal :=
  let grid := Nat.pow 10 dropped
  let lower : Decimal := ⟨d.digits / grid, d.exponent + dropped⟩
  let upper : Decimal := ⟨d.digits / grid + 1, d.exponent + dropped⟩
  match readsBack lower, readsBack upper with
  | true, true => some (if 2 * (d.digits % grid) < grid then lower else upper)
  | true, false => some lower
  | false, true => some upper
  | false, false => none

/-- The decimal near `d` that reads back and drops the most of its digits, at most `dropped`. -/
def shorten (readsBack : Decimal → Bool) (d : Decimal) : Nat → Decimal
  | 0 => d
  | dropped + 1 => (shortened? readsBack d (dropped + 1)).getD (shorten readsBack d dropped)

/-- The decimal of the fewest digits that reads back to a rank, and of those the nearest. -/
def shortest (f : Format) (rank : Nat) : Decimal :=
  let d := exact f rank
  (shorten (fun c => c.rank f == rank) d ((Nat.toDigits 10 d.digits).length - 1)).trim

/-- How many digits stand before the point when the decimal is written without an exponent;
negative when zeros follow the point first. -/
def point (d : Decimal) : Int := (Nat.toDigits 10 d.digits).length + d.exponent

/-- Positional notation, with as many places after the point as there are digits for. -/
def positional (d : Decimal) : String :=
  let digits := Nat.toDigits 10 d.digits
  match d.point with
  | .ofNat before =>
    if digits.length ≤ before then
      String.ofList (digits ++ List.replicate (before - digits.length) '0')
    else String.ofList (digits.take before ++ (if before = 0 then ['0'] else []) ++
      '.' :: digits.drop before)
  | .negSucc zeros =>
    String.ofList ('0' :: '.' :: List.replicate (zeros + 1) '0' ++ digits)

/-- Scientific notation: one digit, the others after a point, and a bare exponent. -/
def scientific (d : Decimal) : String :=
  let exponent := "e" ++ toString (d.point - 1)
  match Nat.toDigits 10 d.digits with
  | first :: second :: rest => String.ofList (first :: '.' :: second :: rest) ++ exponent
  | digits => String.ofList digits ++ exponent

end Decimal

end NodeShader
