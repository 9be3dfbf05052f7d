import Mathlib.Algebra.Group.Nat.Defs
import Mathlib.Order.Monotone.Basic
import NodeShader.Floating.Rounding

/-!
Rounding to the nearest magnitude. What a quotient rounds to does not depend on how it is expanded;
a magnitude of the format rounds to itself, what is less than half a unit to zero, and what is past
the finite magnitudes to a rank past theirs.
-/

namespace NodeShader

section

variable {passes : Nat → Bool}

theorem le_greatest (down : ∀ {m n}, m ≤ n → passes n = true → passes m = true) {n : Nat}
    (pass : passes n = true) (bits base : Nat) (most : n < base + 2 ^ bits) :
    n ≤ greatest passes bits base := by
  induction bits generalizing base with
  | zero =>
    rw [greatest]
    omega
  | succ bits ih =>
    rw [greatest]
    split
    · exact ih _ (by rw [Nat.pow_eq]; omega)
    · next fail =>
      have below : n < base + 2 ^ bits := Nat.lt_of_not_le fun above => fail (down above pass)
      exact ih base below

theorem passes_greatest (bits : Nat) {base : Nat} (start : passes base = true) :
    passes (greatest passes bits base) = true := by
  induction bits generalizing base with
  | zero => exact start
  | succ bits ih =>
    rw [greatest]
    split
    · next pass => exact ih pass
    · exact ih start

theorem greatest_lt (passes : Nat → Bool) (bits base : Nat) :
    greatest passes bits base < base + 2 ^ bits := by
  induction bits generalizing base with
  | zero => exact Nat.lt_succ_self base
  | succ bits ih =>
    rw [greatest]
    split
    · have := ih (base + 2 ^ bits)
      rw [Nat.pow_succ]
      change greatest passes bits (base + 2 ^ bits) < _
      omega
    · have := ih base
      rw [Nat.pow_succ]
      omega

/-- What passes while the next number does not is found. -/
theorem greatest_eq (down : ∀ {m n}, m ≤ n → passes n = true → passes m = true) {low : Nat}
    (pass : passes low = true) (fail : passes (low + 1) = false) {bits : Nat}
    (most : low < 2 ^ bits) : greatest passes bits 0 = low := by
  have found := passes_greatest bits (down (Nat.zero_le low) pass)
  have least := le_greatest down pass bits 0 (by omega)
  refine Nat.le_antisymm (Nat.le_of_not_lt fun above => ?_) least
  rw [down above found] at fail
  cases fail

end

namespace Format

variable (f : Format)

theorem binade_pos : 0 < f.binade := Nat.two_pow_pos _

theorem ranks_lt : f.ranks < 2 ^ f.rankBits := f.ranks_lt_signBit

/-- The magnitudes of one exponent. -/
theorem units_step (step : Nat) {place : Nat} (inside : place < f.binade) :
    f.units ((step + 1) * f.binade + place) = (f.binade + place) * 2 ^ step := by
  have quotient : ((step + 1) * f.binade + place) / f.binade = step + 1 := by
    rw [Nat.mul_comm, Nat.mul_add_div f.binade_pos, Nat.div_eq_of_lt inside, Nat.add_zero]
  rw [units, quotient, Nat.mul_add_mod_of_lt inside]
  rfl

theorem units_least {rank : Nat} (inside : rank < f.binade) : f.units rank = rank := by
  rw [units, Nat.div_eq_of_lt inside]

@[simp]
theorem units_zero : f.units 0 = 0 := f.units_least f.binade_pos

theorem units_binade (step : Nat) : f.units ((step + 1) * f.binade) = f.binade * 2 ^ step :=
  f.units_step step f.binade_pos

/-- The distance to the next magnitude is the same all over an exponent. -/
theorem units_succ (rank : Nat) :
    f.units (rank + 1) = f.units rank + 2 ^ (rank / f.binade - 1) := by
  obtain ⟨step, place, inside, rfl⟩ : ∃ step place, place < f.binade ∧
      step * f.binade + place = rank :=
    ⟨_, _, Nat.mod_lt rank f.binade_pos, Nat.div_add_mod' rank f.binade⟩
  have exponent : (step * f.binade + place) / f.binade = step := by
    rw [Nat.mul_comm, Nat.mul_add_div f.binade_pos, Nat.div_eq_of_lt inside, Nat.add_zero]
  rw [exponent]
  rcases Nat.lt_or_ge (place + 1) f.binade with next | last
  · rw [Nat.add_assoc]
    cases step with
    | zero =>
      rw [Nat.zero_mul, Nat.zero_add, Nat.zero_add, units_least f inside, units_least f next]
      rfl
    | succ step =>
      rw [units_step f step inside, units_step f step next, ← Nat.add_assoc, Nat.add_mul _ 1,
        Nat.one_mul]
      rfl
  · have top : step * f.binade + place + 1 = (step + 1) * f.binade := by
      rw [Nat.add_mul, Nat.one_mul]
      omega
    rw [top, units_binade]
    cases step with
    | zero =>
      rw [Nat.zero_mul, Nat.zero_add, units_least f inside, Nat.pow_zero, Nat.mul_one]
      omega
    | succ step =>
      have double : f.binade * 2 = f.binade + place + 1 := by omega
      rw [units_step f step inside, Nat.pow_succ, Nat.mul_comm (2 ^ step) 2, ← Nat.mul_assoc,
        double, Nat.add_mul _ 1, Nat.one_mul]
      rfl

theorem units_lt_succ (rank : Nat) : f.units rank < f.units (rank + 1) := by
  rw [units_succ]
  exact Nat.lt_add_of_pos_right (Nat.two_pow_pos _)

theorem units_strictMono : StrictMono f.units := strictMono_nat_of_lt_succ f.units_lt_succ

variable {numerator denominator : Nat}

/-- Whether a magnitude is at most a quotient, as the search asks it. -/
theorem isLE_units (rank : Nat) :
    (compare (2 * f.units rank * denominator) (2 * numerator)).isLE = true ↔
      f.units rank * denominator ≤ numerator := by
  rw [Nat.isLE_compare, Nat.mul_assoc]
  omega

theorem isLE_down {m n : Nat} (below : m ≤ n)
    (pass : (compare (2 * f.units n * denominator) (2 * numerator)).isLE = true) :
    (compare (2 * f.units m * denominator) (2 * numerator)).isLE = true := by
  rw [isLE_units] at pass ⊢
  exact Nat.le_trans (Nat.mul_le_mul_right _ (f.units_strictMono.monotone below)) pass

/-- A quotient from a magnitude on and less than halfway to the next rounds down to it. -/
theorem nearestQuotient_eq {rank : Nat} (finite : rank < 2 ^ f.rankBits)
    (least : f.units rank * denominator ≤ numerator)
    (near : 2 * numerator < (f.units rank + f.units (rank + 1)) * denominator) :
    f.nearestQuotient numerator denominator = rank := by
  have further : numerator < f.units (rank + 1) * denominator := by
    rw [Nat.add_mul] at near
    omega
  have found : greatest (fun rank => (compare (2 * f.units rank * denominator) (2 * numerator)).isLE)
      f.rankBits 0 = rank := by
    apply greatest_eq f.isLE_down ((f.isLE_units rank).2 least) _ finite
    rw [Bool.eq_false_iff, Ne, isLE_units]
    omega
  unfold nearestQuotient nearest
  simp only [found, Nat.compare_eq_gt.2 near]

/-- A magnitude of the format rounds to itself. -/
theorem nearestQuotient_units {rank : Nat} (finite : rank < f.ranks) (positive : 0 < denominator) :
    f.nearestQuotient (f.units rank * denominator) denominator = rank := by
  apply f.nearestQuotient_eq (Nat.lt_trans finite f.ranks_lt) (Nat.le_refl _)
  rw [← Nat.mul_assoc]
  apply Nat.mul_lt_mul_of_pos_right _ positive
  have := f.units_lt_succ rank
  omega

/-- What is less than half a unit rounds to zero. -/
theorem nearestQuotient_small (small : 2 * numerator < denominator) :
    f.nearestQuotient numerator denominator = 0 := by
  have one : 0 < f.units 1 := by
    have first := f.units_lt_succ 0
    rwa [units_zero] at first
  apply f.nearestQuotient_eq (Nat.two_pow_pos _) (by simp)
  calc
    2 * numerator < denominator := small
    _ = 1 * denominator := (Nat.one_mul _).symm
    _ ≤ (f.units 0 + f.units 1) * denominator := Nat.mul_le_mul_right _ (by omega)

/-- What is past the finite magnitudes rounds to a rank past theirs. -/
theorem ranks_le_nearestQuotient (large : f.units f.ranks * denominator ≤ numerator) :
    f.ranks ≤ f.nearestQuotient numerator denominator := by
  have down := @isLE_down f numerator denominator
  have found := le_greatest down ((f.isLE_units _).2 large) f.rankBits 0
    (by rw [Nat.zero_add]; exact f.ranks_lt)
  unfold nearestQuotient nearest
  dsimp only
  split <;> omega

/-- Rounding keeps the order. -/
theorem nearestQuotient_mono {numerator' : Nat} (above : numerator ≤ numerator') :
    f.nearestQuotient numerator denominator ≤ f.nearestQuotient numerator' denominator := by
  let passes := fun rank => (compare (2 * f.units rank * denominator) (2 * numerator)).isLE
  have pass : passes (greatest passes f.rankBits 0) = true := by
    apply passes_greatest
    rw [isLE_units]
    simp
  have most := greatest_lt passes f.rankBits 0
  unfold nearestQuotient nearest
  dsimp only
  generalize greatest passes f.rankBits 0 = low at pass most ⊢
  have pass' : (compare (2 * f.units low * denominator) (2 * numerator')).isLE = true := by
    rw [isLE_units] at pass ⊢
    exact Nat.le_trans pass above
  have below := le_greatest f.isLE_down pass' f.rankBits 0 most
  generalize greatest (fun rank => (compare (2 * f.units rank * denominator) (2 * numerator')).isLE)
    f.rankBits 0 = low' at below ⊢
  rcases Nat.lt_or_eq_of_le below with less | rfl
  · split <;> split <;> omega
  · -- between the same two magnitudes the comparisons with their middle decide
    rw [Nat.compare_eq_ite_lt, Nat.compare_eq_ite_lt]
    grind

/-- What is less than halfway to the next magnitude does not round past it. -/
theorem nearestQuotient_le {rank : Nat} (finite : rank < f.ranks) (positive : 0 < denominator)
    (near : 2 * numerator < (f.units rank + f.units (rank + 1)) * denominator) :
    f.nearestQuotient numerator denominator ≤ rank := by
  rcases Nat.le_total (f.units rank * denominator) numerator with least | less
  · exact Nat.le_of_eq (f.nearestQuotient_eq (Nat.lt_trans finite f.ranks_lt) least near)
  · calc
      _ ≤ f.nearestQuotient (f.units rank * denominator) denominator := f.nearestQuotient_mono less
      _ = rank := f.nearestQuotient_units finite positive

/-- Rounding only depends on the quotient. -/
theorem nearestQuotient_expand (numerator denominator : Nat) {factor : Nat} (positive : 0 < factor) :
    f.nearestQuotient (numerator * factor) (denominator * factor) =
      f.nearestQuotient numerator denominator := by
  unfold nearestQuotient
  congr 1
  funext halves
  rw [← Nat.mul_assoc, ← Nat.mul_assoc, Nat.compare_eq_ite_lt, Nat.compare_eq_ite_lt]
  simp only [Nat.mul_lt_mul_right positive]

theorem nearestQuotient_congr {numerator' denominator' : Nat} (positive : 0 < denominator)
    (positive' : 0 < denominator') (same : numerator * denominator' = numerator' * denominator) :
    f.nearestQuotient numerator denominator = f.nearestQuotient numerator' denominator' :=
  calc
    _ = f.nearestQuotient (numerator * denominator') (denominator * denominator') :=
      (f.nearestQuotient_expand _ _ positive').symm
    _ = f.nearestQuotient (numerator' * denominator) (denominator' * denominator) := by
      rw [same, Nat.mul_comm denominator]
    _ = _ := f.nearestQuotient_expand _ _ positive

end Format

end NodeShader
