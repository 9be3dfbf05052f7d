import Mathlib.Algebra.Order.Field.Power
import Mathlib.Data.Rat.Cast.Order
import Mathlib.Tactic.Positivity
import Mathlib.Tactic.Ring
import NodeShader.Floating.Decimal
import NodeShader.Proofs.Floating.Nearest

/-!
The number a decimal denotes is all that decides which binary number is nearest to it, and the
shortest decimal of a binary number is nearest to that very number.
-/

namespace NodeShader

namespace Floating

variable {f : Format}

theorem ofRank_of_lt (negative : Bool) (rank : Fin f.ranks) :
    ofRank negative rank.val = .finite negative rank := dif_pos rank.isLt

theorem ofRank_of_ranks_le (negative : Bool) {rank : Nat} (large : f.ranks ≤ rank) :
    (ofRank negative rank : Floating f) = .infinite negative := dif_neg (Nat.not_lt.2 large)

theorem rank_of_ofRank {negative : Bool} {rank : Nat} {place : Fin f.ranks}
    (same : ofRank negative rank = .finite negative place) : rank = place := by
  unfold ofRank at same
  split at same
  · cases same
    rfl
  · cases same

end Floating

namespace Decimal

variable {f : Format} {d : Decimal}

/-- The number that a decimal denotes. -/
def magnitude (d : Decimal) : ℚ := d.digits * 10 ^ d.exponent

theorem magnitude_ofNat (digits raised : Nat) :
    magnitude ⟨digits, .ofNat raised⟩ = (digits * 10 ^ raised : Nat) := by
  rw [magnitude, Int.ofNat_eq_natCast, zpow_natCast]
  push_cast
  rfl

theorem magnitude_negSucc (digits lowered : Nat) :
    magnitude ⟨digits, .negSucc lowered⟩ * (10 ^ (lowered + 1) : Nat) = digits := by
  have some_power : (10 : ℚ) ^ (lowered + 1) ≠ 0 := pow_ne_zero _ (by decide)
  rw [magnitude, zpow_negSucc]
  push_cast
  rw [mul_assoc, inv_mul_cancel₀ some_power, mul_one]

/-- A digit more at the end, and the exponent one less. -/
theorem magnitude_shift (digits : Nat) (exponent : Int) :
    magnitude ⟨digits * 10, exponent⟩ = magnitude ⟨digits, exponent + 1⟩ := by
  rw [magnitude, magnitude, zpow_add_one₀ (by decide)]
  push_cast
  ring

theorem magnitude_trim (d : Decimal) : d.trim.magnitude = d.magnitude := by
  induction d using trim.induct with
  | case1 d zero =>
    rw [trim, dif_pos zero, magnitude, magnitude, zero]
    simp
  | case2 d some_digit ends ih =>
    rw [trim, dif_neg some_digit, if_pos ends, ih, ← magnitude_shift,
      Nat.div_mul_cancel (Nat.dvd_of_mod_eq_zero ends)]
  | case3 d some_digit ends => rw [trim, dif_neg some_digit, if_neg ends]

/-- The largest finite magnitude is below the power of ten from which on no exponent is tried. -/
theorem units_ranks_le (f : Format) :
    f.units f.ranks ≤ 10 ^ 2 ^ f.exponentBits * f.one := by
  obtain ⟨step, width⟩ : ∃ step, 2 ^ f.exponentBits = step + 2 := by
    have wide : 2 ^ 2 ≤ 2 ^ f.exponentBits := Nat.pow_le_pow_right (by decide) f.two_le_exponentBits
    exact ⟨2 ^ f.exponentBits - 2, by omega⟩
  have ranks : f.ranks = (step + 1) * f.binade := by
    rw [Format.ranks]
    change (2 ^ f.exponentBits - 1) * f.binade = _
    rw [width]
    rfl
  have one : f.binade ≤ f.one := Nat.pow_le_pow_right (by decide) (Nat.le_add_left _ _)
  calc
    f.units f.ranks = 2 ^ step * f.binade := by rw [ranks, f.units_binade, Nat.mul_comm]
    _ ≤ 10 ^ step * f.one := Nat.mul_le_mul (Nat.pow_le_pow_left (by decide) step) one
    _ ≤ 10 ^ 2 ^ f.exponentBits * f.one := by
      rw [width]
      exact Nat.mul_le_mul_right _ (Nat.pow_le_pow_right (by decide) (Nat.le_add_right _ _))

/-- What is below half the least positive magnitude, so far that no power of ten is needed to see
it. -/
theorem small_of_log {digits lowered : Nat}
    (small : digits.log2 + f.unitExponent + 2 ≤ 3 * lowered) :
    2 * (digits * f.one) < 10 ^ (lowered + 1) := by
  calc
    2 * (digits * f.one) < 2 * (2 ^ (digits.log2 + 1) * f.one) := by
      have below : digits < 2 ^ (digits.log2 + 1) := Nat.lt_log2_self
      have some_unit : 0 < f.one := Nat.two_pow_pos _
      have := Nat.mul_lt_mul_of_pos_right below some_unit
      omega
    _ = 2 ^ (digits.log2 + f.unitExponent + 2) := by
      change 2 * (2 ^ (digits.log2 + 1) * 2 ^ f.unitExponent) = _
      rw [← Nat.pow_add, ← Nat.pow_succ']
      congr 1
      omega
    _ ≤ 2 ^ (3 * lowered) := Nat.pow_le_pow_right (by decide) small
    _ = 8 ^ lowered := Nat.pow_mul 2 3 lowered
    _ ≤ 10 ^ lowered := Nat.pow_le_pow_left (by decide) lowered
    _ ≤ 10 ^ (lowered + 1) := Nat.pow_le_pow_right (by decide) (Nat.le_succ _)

/-- Above the powers of ten that are tried there is no finite number. -/
theorem toFloating_raised {digits raised numerator denominator : Nat} (some_digit : digits ≠ 0)
    (positive : 0 < denominator) (whole : digits * 10 ^ raised * f.one * denominator = numerator)
    (negative : Bool) :
    toFloating negative ⟨digits, .ofNat raised⟩ =
      (.ofQuotient negative numerator denominator : Floating f) := by
  unfold toFloating Floating.ofQuotient rank
  rw [if_neg some_digit]
  dsimp only
  split
  · next high =>
    have large : f.ranks ≤ f.nearestQuotient numerator denominator := by
      apply f.ranks_le_nearestQuotient
      rw [← whole]
      apply Nat.mul_le_mul_right
      calc
        f.units f.ranks ≤ 10 ^ 2 ^ f.exponentBits * f.one := units_ranks_le f
        _ ≤ 10 ^ raised * f.one :=
          Nat.mul_le_mul_right _ (Nat.pow_le_pow_right (by decide) high)
        _ ≤ digits * 10 ^ raised * f.one :=
          Nat.mul_le_mul_right _ (Nat.le_mul_of_pos_left _ (Nat.pos_of_ne_zero some_digit))
    rw [Floating.ofRank_of_ranks_le _ (Nat.le_refl _), Floating.ofRank_of_ranks_le _ large]
  · congr 1
    apply f.nearestQuotient_congr Nat.one_pos positive
    rw [Nat.mul_one]
    exact whole

/-- Below the powers of ten that are tried all is nearest to zero. -/
theorem toFloating_lowered {digits lowered numerator denominator : Nat} (some_digit : digits ≠ 0)
    (positive : 0 < denominator)
    (whole : digits * f.one * denominator = numerator * 10 ^ (lowered + 1)) (negative : Bool) :
    toFloating negative ⟨digits, .negSucc lowered⟩ =
      (.ofQuotient negative numerator denominator : Floating f) := by
  unfold toFloating Floating.ofQuotient rank
  rw [if_neg some_digit]
  dsimp only
  split
  · next low =>
    rw [f.nearestQuotient_small]
    have small := Nat.mul_lt_mul_of_pos_right (small_of_log low) positive
    rw [Nat.mul_assoc, whole, ← Nat.mul_assoc, Nat.mul_comm (10 ^ (lowered + 1))] at small
    exact Nat.lt_of_mul_lt_mul_right small
  · congr 1
    exact f.nearestQuotient_congr (Nat.pow_pos (by decide)) positive whole

/-- The number nearest to a decimal is the one nearest to any quotient of units it denotes. -/
theorem toFloating_eq {numerator denominator : Nat} (positive : 0 < denominator)
    (same : d.magnitude * f.one = numerator / denominator) (negative : Bool) :
    d.toFloating negative = (.ofQuotient negative numerator denominator : Floating f) := by
  have some_denominator : (denominator : ℚ) ≠ 0 := by exact_mod_cast positive.ne'
  rw [eq_div_iff some_denominator] at same
  obtain ⟨digits, exponent⟩ := d
  by_cases zero : digits = 0
  · rw [zero] at same
    have nothing : numerator = 0 := by
      have : (numerator : ℚ) = 0 := by rw [← same]; simp [magnitude]
      exact_mod_cast this
    unfold toFloating Floating.ofQuotient rank
    rw [if_pos zero, nothing, f.nearestQuotient_small positive]
  · cases exponent with
    | ofNat raised =>
      rw [magnitude_ofNat] at same
      exact toFloating_raised zero positive (by exact_mod_cast same) negative
    | negSucc lowered =>
      have scaled : (digits * f.one * denominator : ℚ) =
          numerator * (10 ^ (lowered + 1) : Nat) := by
        rw [← same, ← magnitude_negSucc digits lowered]
        ring
      exact toFloating_lowered zero positive (by exact_mod_cast scaled) negative

/-- Decimals that denote one number are nearest to one binary number. -/
theorem toFloating_congr {d' : Decimal} (same : d.magnitude = d'.magnitude) (negative : Bool) :
    d.toFloating negative = (d'.toFloating negative : Floating f) := by
  have positive : 0 ≤ d.magnitude * f.one := by
    unfold magnitude
    positivity
  obtain ⟨numerator, whole⟩ := Int.eq_ofNat_of_zero_le (Rat.num_nonneg.2 positive)
  have expanded : d.magnitude * f.one = numerator / (d.magnitude * f.one).den :=
    calc
      _ = ((d.magnitude * f.one).num : ℚ) / (d.magnitude * f.one).den := (Rat.num_div_den _).symm
      _ = numerator / (d.magnitude * f.one).den := by rw [whole, Int.cast_natCast]
  have expanded' : d'.magnitude * f.one = numerator / (d.magnitude * f.one).den := by
    rwa [← same]
  exact (toFloating_eq (Rat.den_pos _) expanded negative).trans
    (toFloating_eq (Rat.den_pos _) expanded' negative).symm

/-! ### The shortest decimal -/

theorem magnitude_exact (f : Format) (rank : Nat) :
    (exact f rank).magnitude * f.one = f.units rank := by
  have unit : (10 : ℚ) ^ f.unitExponent = 5 ^ f.unitExponent * 2 ^ f.unitExponent := by
    rw [← mul_pow]
    norm_num
  have some_unit : (10 : ℚ) ^ f.unitExponent ≠ 0 := pow_ne_zero _ (by decide)
  calc
    (exact f rank).magnitude * f.one =
        (f.units rank * 5 ^ f.unitExponent : Nat) * (10 ^ (-(f.unitExponent : Int)) : ℚ) *
          (2 ^ f.unitExponent : Nat) := rfl
    _ = f.units rank * (5 ^ f.unitExponent * 2 ^ f.unitExponent) * (10 ^ f.unitExponent)⁻¹ := by
      rw [zpow_neg, zpow_natCast]
      push_cast
      ring
    _ = f.units rank := by rw [← unit, mul_assoc, mul_inv_cancel₀ some_unit, mul_one]

theorem toFloating_exact (negative : Bool) (rank : Fin f.ranks) :
    (exact f rank).toFloating negative = .finite negative rank := by
  have same : (exact f rank).magnitude * f.one = (f.units rank * 1 : Nat) / (1 : Nat) := by
    rw [magnitude_exact]
    simp
  rw [toFloating_eq Nat.one_pos same, Floating.ofQuotient,
    f.nearestQuotient_units rank.isLt Nat.one_pos, Floating.ofRank_of_lt]

theorem readsBack_shortened? {readsBack : Decimal → Bool} {d shorter : Decimal} {dropped : Nat}
    (found : shortened? readsBack d dropped = some shorter) : readsBack shorter = true := by
  unfold shortened? at found
  dsimp only at found
  split at found
  · next lower upper =>
    cases found
    split
    · exact lower
    · exact upper
  · next lower _ =>
    cases found
    exact lower
  · next _ upper =>
    cases found
    exact upper
  · cases found

theorem readsBack_shorten (readsBack : Decimal → Bool) {d : Decimal} (start : readsBack d = true)
    (dropped : Nat) : readsBack (shorten readsBack d dropped) = true := by
  induction dropped with
  | zero => exact start
  | succ dropped ih =>
    rw [shorten]
    cases found : shortened? readsBack d (dropped + 1) with
    | none => exact ih
    | some shorter => exact readsBack_shortened? found

/-- The shortest decimal of a binary number is nearest to it. -/
theorem toFloating_shortest (negative : Bool) (rank : Fin f.ranks) :
    (shortest f rank).toFloating negative = .finite negative rank := by
  have start : ((exact f rank).rank f == rank.val) = true :=
    beq_iff_eq.2 (Floating.rank_of_ofRank (toFloating_exact false rank))
  have back := readsBack_shorten (fun d => d.rank f == rank.val) start
    ((Nat.toDigits 10 (exact f rank).digits).length - 1)
  have same : (shorten (fun d => d.rank f == rank.val) (exact f rank)
      ((Nat.toDigits 10 (exact f rank).digits).length - 1)).rank f = rank := beq_iff_eq.1 back
  calc
    _ = Decimal.toFloating negative (shorten (fun d => d.rank f == rank.val) (exact f rank)
          ((Nat.toDigits 10 (exact f rank).digits).length - 1)) :=
      toFloating_congr (magnitude_trim _) negative
    _ = .ofRank negative rank.val := congrArg (Floating.ofRank negative) same
    _ = _ := Floating.ofRank_of_lt negative rank

end Decimal

end NodeShader
