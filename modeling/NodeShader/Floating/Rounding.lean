import NodeShader.Floating.Format

/-!
Rounding to the nearest magnitude of a format, an exact half going to the even rank. What is
rounded is any real magnitude that can be compared with whole numbers of half units.
-/

namespace NodeShader

/-- The greatest number of the given bits, counted from `base`, that passes; found from the top
bit down, which is right when every number below a passing one passes. -/
def greatest (passes : Nat → Bool) : Nat → Nat → Nat
  | 0, base => base
  | bits + 1, base =>
    let next := base + Nat.pow 2 bits
    greatest passes bits (if passes next then next else base)

namespace Format

variable (f : Format)

/-- The rank nearest to a magnitude; `against k` tells how `k` half units compare with it. -/
def nearest (against : Nat → Ordering) : Nat :=
  let low := greatest (fun rank => (against (2 * f.units rank)).isLE) f.rankBits 0
  match against (f.units low + f.units (low + 1)) with
  | .lt => low + 1
  | .eq => low + low % 2
  | .gt => low

/-- The rank nearest to `numerator / denominator` units. -/
def nearestQuotient (numerator denominator : Nat) : Nat :=
  f.nearest fun halves => compare (halves * denominator) (2 * numerator)

/-- The rank nearest to the square root of `square` units. -/
def nearestRoot (square : Nat) : Nat :=
  f.nearest fun halves => compare (halves * halves) (4 * square)

end Format

namespace Floating

variable {f : Format}

/-- The number nearest to `numerator / denominator` units, with the given sign. -/
def ofQuotient (negative : Bool) (numerator denominator : Nat) : Floating f :=
  .ofRank negative (f.nearestQuotient numerator denominator)

/-- The number nearest to a whole number of units; zero takes the sign given for it. -/
def ofUnits (negativeZero : Bool) (units : Int) : Floating f :=
  if units = 0 then zero negativeZero else ofQuotient (units < 0) units.natAbs 1

def ofInt (value : Int) : Floating f := ofUnits false (value * f.one)

/-- The nearest number of another format. -/
def convert {g : Format} : Floating f → Floating g
  | .nan => .nan
  | .infinite negative => .infinite negative
  | .finite negative rank => ofQuotient negative (f.units rank * g.one) f.one

end Floating

end NodeShader
