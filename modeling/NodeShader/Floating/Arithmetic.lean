import NodeShader.Floating.Rounding

/-!
Arithmetic of floating-point numbers: each operation is the exact one, rounded once.
-/

namespace NodeShader

namespace Floating

variable {f : Format}

/-- The place in the order of numbers; both zeros share one and not-a-number has none. -/
def place : Floating f → Option Int
  | .nan => none
  | .infinite negative => some (if negative then -f.ranks else f.ranks)
  | .finite negative rank => some (if negative then -(rank : Int) else rank)

def lt (x y : Floating f) : Bool :=
  match x.place, y.place with
  | some a, some b => a < b
  | _, _ => false

def le (x y : Floating f) : Bool :=
  match x.place, y.place with
  | some a, some b => a ≤ b
  | _, _ => false

/-- Numeric equality: the zeros are equal and not-a-number equals nothing. -/
def same (x y : Floating f) : Bool :=
  match x.place, y.place with
  | some a, some b => a = b
  | _, _ => false

def neg : Floating f → Floating f
  | .nan => .nan
  | .infinite negative => .infinite !negative
  | .finite negative rank => .finite (!negative) rank

def abs : Floating f → Floating f
  | .nan => .nan
  | .infinite _ => .infinite false
  | .finite _ rank => .finite false rank

/-- A finite number in units. -/
def signedUnits (negative : Bool) (rank : Fin f.ranks) : Int :=
  if negative then -(f.units rank : Int) else f.units rank

def add : Floating f → Floating f → Floating f
  | .nan, _ | _, .nan => .nan
  | .infinite s, .infinite t => if s = t then .infinite s else .nan
  | .infinite s, .finite _ _ | .finite _ _, .infinite s => .infinite s
  | .finite s a, .finite t b => ofUnits (s && t) (signedUnits s a + signedUnits t b)

def sub (x y : Floating f) : Floating f := x.add y.neg

def mul : Floating f → Floating f → Floating f
  | .nan, _ | _, .nan => .nan
  | .infinite s, .infinite t => .infinite (s != t)
  | .infinite s, .finite t a | .finite t a, .infinite s =>
    if a.val = 0 then .nan else .infinite (s != t)
  | .finite s a, .finite t b => ofQuotient (s != t) (f.units a * f.units b) f.one

def div : Floating f → Floating f → Floating f
  | .nan, _ | _, .nan => .nan
  | .infinite _, .infinite _ => .nan
  | .infinite s, .finite t _ => .infinite (s != t)
  | .finite s _, .infinite t => zero (s != t)
  | .finite s a, .finite t b =>
    if b.val = 0 then
      if a.val = 0 then .nan else .infinite (s != t)
    else ofQuotient (s != t) (f.units a * f.one) (f.units b)

/-- What is left after taking the divisor away a whole number of times; the sign is the
dividend's. -/
def rem : Floating f → Floating f → Floating f
  | .nan, _ | _, .nan | .infinite _, _ => .nan
  | .finite s a, .infinite _ => .finite s a
  | .finite s a, .finite _ b =>
    if b.val = 0 then .nan else ofQuotient s (f.units a % f.units b) 1

/-- The greater one; not-a-number gives way to the other. -/
def max (x y : Floating f) : Floating f :=
  if x.isNaN then y else if y.isNaN then x else if x.lt y then y else x

/-- The lesser one; not-a-number gives way to the other. -/
def min (x y : Floating f) : Floating f :=
  if x.isNaN then y else if y.isNaN then x else if y.lt x then y else x

/-- A whole number near a number. `outward` decides from the whole part of the magnitude and the
units left over whether the magnitude goes up. -/
def toWhole (outward : Bool → Nat → Nat → Bool) : Floating f → Floating f
  | .nan => .nan
  | .infinite negative => .infinite negative
  | .finite negative rank =>
    let whole := f.units rank / f.one
    let rest := f.units rank % f.one
    ofQuotient negative ((whole + (outward negative whole rest).toNat) * f.one) 1

def floor : Floating f → Floating f := toWhole fun negative _ rest => negative && rest != 0

def ceil : Floating f → Floating f := toWhole fun negative _ rest => !negative && rest != 0

def trunc : Floating f → Floating f := toWhole fun _ _ _ => false

/-- The nearest whole number, a half going to the even one. -/
def round : Floating f → Floating f := toWhole fun _ whole rest =>
  2 * rest > f.one || (2 * rest == f.one && whole % 2 == 1)

def sqrt : Floating f → Floating f
  | .nan => .nan
  | .infinite negative => if negative then .nan else .infinite false
  | .finite negative rank =>
    if rank.val = 0 then .finite negative rank
    else if negative then .nan
    else ofRank false (f.nearestRoot (f.units rank * f.one))

instance : Add (Floating f) := ⟨add⟩
instance : Sub (Floating f) := ⟨sub⟩
instance : Mul (Floating f) := ⟨mul⟩
instance : Div (Floating f) := ⟨div⟩
instance : Mod (Floating f) := ⟨rem⟩
instance : Neg (Floating f) := ⟨neg⟩

end Floating

end NodeShader
