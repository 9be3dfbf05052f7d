/-!
Binary floating-point formats and their numbers. Magnitudes are listed in increasing order, and a
number holds its magnitude as the rank in that list, which is also its bit pattern without the
sign. Every finite magnitude is a whole number of units, the least positive magnitude being one.
-/

namespace NodeShader

structure Format where
  fractionBits : Nat
  exponentBits : Nat
  two_le_exponentBits : 2 ≤ exponentBits := by decide
  deriving DecidableEq, Repr

namespace Format

def binary32 : Format := ⟨23, 8, by decide⟩

def binary64 : Format := ⟨52, 11, by decide⟩

variable (f : Format)

/-- The bits of a rank: all of a number's bits but the sign. -/
def rankBits : Nat := f.fractionBits + f.exponentBits

def signBit : Nat := Nat.pow 2 f.rankBits

/-- How many magnitudes share an exponent. -/
def binade : Nat := Nat.pow 2 f.fractionBits

/-- The rank of infinity; the finite magnitudes have the ranks below it. -/
def ranks : Nat := (Nat.pow 2 f.exponentBits - 1) * f.binade

/-- A unit is two to the power of minus this. -/
def unitExponent : Nat := Nat.pow 2 (f.exponentBits - 1) - 2 + f.fractionBits

/-- The number one, in units. -/
def one : Nat := Nat.pow 2 f.unitExponent

/-- The magnitude of a rank, in units. The ranks from infinity on continue the list as if the
format had room for them, which is what rounding compares against. -/
def units (rank : Nat) : Nat :=
  match rank / f.binade with
  | 0 => rank
  | step + 1 => (f.binade + rank % f.binade) * Nat.pow 2 step

theorem ranks_pos : 0 < f.ranks := by
  have wide : Nat.pow 2 2 ≤ Nat.pow 2 f.exponentBits :=
    Nat.pow_le_pow_right (show 0 < 2 by decide) f.two_le_exponentBits
  refine Nat.mul_pos ?_ (Nat.two_pow_pos _)
  exact Nat.sub_pos_of_lt (Nat.lt_of_lt_of_le (by decide) wide)

theorem ranks_lt_signBit : f.ranks < f.signBit := by
  have split : f.signBit = Nat.pow 2 f.exponentBits * f.binade := by
    unfold signBit binade rankBits
    rw [Nat.mul_comm]
    exact Nat.pow_add 2 f.fractionBits f.exponentBits
  rw [split, ranks]
  exact Nat.mul_lt_mul_of_pos_right (Nat.sub_lt (Nat.two_pow_pos _) Nat.one_pos) (Nat.two_pow_pos _)

end Format

/-- A number of a format; the not-a-number patterns are one value. -/
inductive Floating (f : Format) where
  | nan
  | infinite (negative : Bool)
  | finite (negative : Bool) (rank : Fin f.ranks)
  deriving DecidableEq, Repr

/-- The scalar type of the shading language. -/
abbrev F32 := Floating .binary32

/-- The type of fractional numbers in documents. -/
abbrev F64 := Floating .binary64

namespace Floating

variable {f : Format}

def zero (negative : Bool) : Floating f := .finite negative ⟨0, f.ranks_pos⟩

/-- The number of a sign and a rank; ranks past the finite ones are infinite. -/
def ofRank (negative : Bool) (rank : Nat) : Floating f :=
  if h : rank < f.ranks then .finite negative ⟨rank, h⟩ else .infinite negative

instance : Inhabited (Floating f) := ⟨zero false⟩

def isFinite : Floating f → Bool
  | .finite _ _ => true
  | _ => false

def isNaN : Floating f → Bool
  | .nan => true
  | _ => false

/-- The bit pattern, sign first; not-a-number has no pattern of its own. -/
def bits? : Floating f → Option Nat
  | .nan => none
  | .infinite negative => some (negative.toNat * f.signBit + f.ranks)
  | .finite negative rank => some (negative.toNat * f.signBit + rank)

/-- The number of a bit pattern, read from its low bits. -/
def ofBits (bits : Nat) : Floating f :=
  let rank := bits % f.signBit
  let negative := bits.testBit f.rankBits
  if rank ≤ f.ranks then ofRank negative rank else .nan

/-- The pattern of a sign and a rank reads back as that sign and rank. -/
theorem ofBits_sign_rank (negative : Bool) {rank : Nat} (h : rank ≤ f.ranks) :
    (ofBits (negative.toNat * f.signBit + rank) : Floating f) = ofRank negative rank := by
  have small : rank < 2 ^ f.rankBits := Nat.lt_of_le_of_lt h f.ranks_lt_signBit
  have low : (negative.toNat * f.signBit + rank) % f.signBit = rank := by
    rw [Nat.mul_add_mod_self_right]
    exact Nat.mod_eq_of_lt small
  have high : (negative.toNat * f.signBit + rank).testBit f.rankBits = negative := by
    rw [Nat.mul_comm]
    refine (Nat.testBit_two_pow_mul_add negative.toNat small f.rankBits).trans ?_
    cases negative <;> simp
  simp only [ofBits, low, high, h, if_true]

theorem ofBits_of_bits? {x : Floating f} {bits : Nat} (h : x.bits? = some bits) :
    ofBits bits = x := by
  cases x with
  | nan => cases h
  | infinite negative =>
    cases h
    rw [ofBits_sign_rank negative (Nat.le_refl _), ofRank, dif_neg (Nat.lt_irrefl _)]
  | finite negative rank =>
    cases h
    rw [ofBits_sign_rank negative (Nat.le_of_lt rank.isLt), ofRank, dif_pos rank.isLt]

end Floating

end NodeShader
