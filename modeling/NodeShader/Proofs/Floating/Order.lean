import Mathlib.Algebra.Order.Field.Basic
import Mathlib.Data.Rat.Cast.Order
import NodeShader.Floating.Arithmetic
import NodeShader.Proofs.Floating.Nearest

/-!
The order of numbers. Finite numbers stand in the order of their units, rounding keeps that order,
and so the difference of two finite numbers has the sign that their order asks for.
-/

namespace NodeShader

namespace Format

variable (f : Format)

theorem units_lt {rank rank' : Nat} : f.units rank < f.units rank' ↔ rank < rank' :=
  f.units_strictMono.lt_iff_lt

theorem le_units (rank : Nat) : rank ≤ f.units rank := by
  induction rank with
  | zero => exact Nat.zero_le _
  | succ rank ih => exact Nat.lt_of_le_of_lt ih (f.units_lt_succ rank)

/-- The rank nearest to a whole number of units, that of infinity if it is past the finite ones. -/
def nearestRank (units : Nat) : Nat := min (f.nearestQuotient units 1) f.ranks

theorem nearestRank_units {rank : Nat} (finite : rank < f.ranks) :
    f.nearestRank (f.units rank) = rank := by
  have exact := f.nearestQuotient_units finite Nat.one_pos
  rw [Nat.mul_one] at exact
  rw [nearestRank, exact]
  omega

@[simp]
theorem nearestRank_zero : f.nearestRank 0 = 0 := by
  have exact := f.nearestRank_units f.ranks_pos
  rwa [units_zero] at exact

theorem nearestRank_mono {units units' : Nat} (below : units ≤ units') :
    f.nearestRank units ≤ f.nearestRank units' := by
  have rounded : f.nearestQuotient units 1 ≤ f.nearestQuotient units' 1 :=
    f.nearestQuotient_mono below
  unfold nearestRank
  omega

/-- The place of the number nearest to a whole number of units. -/
def nearestPlace (units : Int) : Int :=
  if units < 0 then -(f.nearestRank units.natAbs : Int) else f.nearestRank units.natAbs

theorem nearestPlace_mono {units units' : Int} (below : units ≤ units') :
    f.nearestPlace units ≤ f.nearestPlace units' := by
  unfold nearestPlace
  split
  · split
    · have := f.nearestRank_mono (show units'.natAbs ≤ units.natAbs by omega)
      omega
    · omega
  · have := f.nearestRank_mono (show units.natAbs ≤ units'.natAbs by omega)
    rw [if_neg (show ¬ units' < 0 by omega)]
    omega

theorem nearestPlace_neg (units : Int) : f.nearestPlace (-units) = -f.nearestPlace units := by
  unfold nearestPlace
  rw [Int.natAbs_neg]
  rcases Int.lt_trichotomy units 0 with negative | rfl | positive
  · rw [if_pos negative, if_neg (by omega), Int.neg_neg]
  · simp
  · rw [if_neg (show ¬ units < 0 by omega), if_pos (by omega)]

theorem one_lt_ranks : 1 < f.ranks := by
  have wide : 2 ^ 2 ≤ 2 ^ f.exponentBits := Nat.pow_le_pow_right (by decide) f.two_le_exponentBits
  calc
    1 < (2 ^ f.exponentBits - 1) * 1 := by omega
    _ ≤ f.ranks := Nat.mul_le_mul_left _ f.binade_pos

theorem nearestPlace_pos (units : Int) : 0 < f.nearestPlace units ↔ 0 < units := by
  constructor
  · intro above
    by_contra below
    have := f.nearestPlace_mono (show units ≤ 0 by omega)
    have zero : f.nearestPlace 0 = 0 := by simp [nearestPlace]
    omega
  · intro positive
    have least : 1 ≤ f.nearestRank (f.units 1) :=
      Nat.le_of_eq (f.nearestRank_units f.one_lt_ranks).symm
    have one : f.units 1 = 1 := by rw [f.units_succ 0]; simp
    have := f.nearestRank_mono (show f.units 1 ≤ units.natAbs by omega)
    rw [nearestPlace, if_neg (by omega)]
    omega

theorem nearestPlace_lt_zero (units : Int) : f.nearestPlace units < 0 ↔ units < 0 := by
  have opposite := f.nearestPlace_neg units
  have positive := f.nearestPlace_pos (-units)
  omega

/-- Taking more than half of the distance to the magnitude below leads below. -/
theorem nearestPlace_sub_lt {rank width : Nat} (finite : rank < f.ranks)
    (wide : 2 ^ ((rank - 1) / f.binade - 1) < 2 * width) :
    f.nearestPlace (f.units rank - width) < rank := by
  have some_width : 0 < 2 ^ ((rank - 1) / f.binade - 1) := Nat.two_pow_pos _
  cases rank with
  | zero =>
    rw [units_zero]
    exact (f.nearestPlace_lt_zero _).2 (by omega)
  | succ rank =>
    have distance := f.units_succ rank
    rw [Nat.add_sub_cancel] at wide
    rcases Int.lt_or_le (f.units (rank + 1) - width : Int) 0 with below | above
    · have := (f.nearestPlace_lt_zero _).2 below
      omega
    · have nearest : f.nearestQuotient (f.units (rank + 1) - width : Int).natAbs 1 ≤ rank :=
        f.nearestQuotient_le (by omega) Nat.one_pos (by omega)
      rw [nearestPlace, if_neg (by omega), nearestRank]
      omega

end Format

namespace Floating

variable {f : Format} {s t : Bool} {a b : Fin f.ranks} {x y : Floating f}

theorem eq_finite (finite : x.isFinite = true) : ∃ s a, x = .finite s a := by
  cases x with
  | nan => cases finite
  | infinite => cases finite
  | finite s a => exact ⟨s, a, rfl⟩

/-- A finite number is nearest to itself. -/
theorem nearestPlace_signedUnits (s : Bool) (a : Fin f.ranks) :
    f.nearestPlace (signedUnits s a) = if s then -(a : Int) else a := by
  have exact := f.nearestRank_units a.isLt
  have := f.le_units a
  unfold Format.nearestPlace signedUnits
  cases s with
  | false => simp [exact]
  | true =>
    by_cases zero : a.val = 0
    · simp [zero]
    · have some_unit : f.units a ≠ 0 := by omega
      simp [exact, some_unit]

theorem place_finite (s : Bool) (a : Fin f.ranks) :
    (finite s a).place = some (f.nearestPlace (signedUnits s a)) :=
  congrArg some (nearestPlace_signedUnits s a).symm

theorem place_zero (negative : Bool) : (zero negative : Floating f).place = some 0 := by
  cases negative <;> rfl

theorem place_ofRank (s : Bool) (rank : Nat) : (ofRank s rank : Floating f).place =
    some (if s then -(Nat.min rank f.ranks : Int) else Nat.min rank f.ranks) := by
  unfold ofRank
  split
  · next finite =>
    have least : Nat.min rank f.ranks = rank := Nat.min_eq_left (Nat.le_of_lt finite)
    rw [place, least]
  · next infinite =>
    have least : Nat.min rank f.ranks = f.ranks := Nat.min_eq_right (Nat.le_of_not_lt infinite)
    rw [place, least]

theorem place_ofUnits (negativeZero : Bool) (units : Int) :
    (ofUnits negativeZero units : Floating f).place = some (f.nearestPlace units) := by
  unfold ofUnits
  split
  · next zero =>
    subst zero
    cases negativeZero <;> simp [zero, place, Format.nearestPlace]
  · rw [ofQuotient, place_ofRank, Format.nearestPlace]
    simp only [decide_eq_true_eq]
    rfl

theorem isFinite_iff : x.isFinite = true ↔ ∃ place : Int, x.place = some place ∧
    -(f.ranks : Int) < place ∧ place < f.ranks := by
  have some_rank := f.ranks_pos
  cases x with
  | nan => simp [isFinite, place]
  | infinite s => cases s <;> simp [isFinite, place]
  | finite s a => cases s <;> simp [isFinite, place] <;> omega

/-- What lies between finite numbers is rounded to a finite number. -/
theorem isFinite_ofUnits {units : Int} (above : signedUnits s a ≤ units)
    (below : units ≤ signedUnits t b) (negativeZero : Bool) :
    (ofUnits negativeZero units : Floating f).isFinite = true := by
  have least := f.nearestPlace_mono above
  have most := f.nearestPlace_mono below
  have bounds (s : Bool) (a : Fin f.ranks) : -(f.ranks : Int) < f.nearestPlace (signedUnits s a) ∧
      f.nearestPlace (signedUnits s a) < f.ranks := by
    have := a.isLt
    rw [nearestPlace_signedUnits]
    cases s <;> simp <;> omega
  have lower := bounds s a
  have upper := bounds t b
  exact isFinite_iff.2 ⟨_, place_ofUnits _ _, by omega, by omega⟩

/-! ### Order -/

theorem lt_iff : x.lt y = true ↔ ∃ a b, x.place = some a ∧ y.place = some b ∧ a < b := by
  unfold lt
  cases x.place <;> cases y.place <;> simp

theorem lt_iff_places {place place' : Int} (known : x.place = some place)
    (known' : y.place = some place') : x.lt y = true ↔ place < place' := by
  simp [lt, known, known']

theorem not_lt_of_lt (less : x.lt y = true) : y.lt x = false := by
  obtain ⟨a, b, place, place', less⟩ := lt_iff.1 less
  rw [Bool.eq_false_iff, Ne, lt_iff]
  intro other
  obtain ⟨b', a', known, known', less'⟩ := other
  rw [place] at known'
  rw [place'] at known
  cases known
  cases known'
  omega

theorem same_comm (x y : Floating f) : x.same y = y.same x := by
  unfold same
  cases x.place <;> cases y.place <;> simp [eq_comm]

theorem not_same_of_lt (less : x.lt y = true) : x.same y = false := by
  obtain ⟨a, b, place, place', less⟩ := lt_iff.1 less
  simp only [same, place, place', decide_eq_false_iff_not]
  omega

/-- The places of finite numbers are in the order of their units. -/
theorem nearestPlace_lt_iff : f.nearestPlace (signedUnits s a) < f.nearestPlace (signedUnits t b) ↔
    signedUnits s a < signedUnits t b := by
  constructor
  · intro less
    by_contra above
    have := f.nearestPlace_mono (Int.le_of_not_gt above)
    omega
  · have order : f.units a < f.units b ↔ a.val < b.val := f.units_lt
    have order' : f.units b < f.units a ↔ b.val < a.val := f.units_lt
    have some_units := f.le_units a
    have some_units' := f.le_units b
    have zero : a.val = 0 → f.units a = 0 := fun zero => by rw [zero, f.units_zero]
    have zero' : b.val = 0 → f.units b = 0 := fun zero => by rw [zero, f.units_zero]
    rw [nearestPlace_signedUnits, nearestPlace_signedUnits]
    unfold signedUnits
    cases s <;> cases t <;> simp <;> omega

theorem lt_iff_units : (finite s a).lt (finite t b) = true ↔ signedUnits s a < signedUnits t b := by
  rw [← nearestPlace_lt_iff, lt_iff_places (place_finite s a) (place_finite t b)]

theorem le_iff_units : (finite s a).le (finite t b) = true ↔ signedUnits s a ≤ signedUnits t b := by
  have above : f.nearestPlace (signedUnits t b) < f.nearestPlace (signedUnits s a) ↔
    signedUnits t b < signedUnits s a := nearestPlace_lt_iff
  simp [le, place_finite]
  omega

theorem same_iff_units :
    (finite s a).same (finite t b) = true ↔ signedUnits s a = signedUnits t b := by
  have below : f.nearestPlace (signedUnits s a) < f.nearestPlace (signedUnits t b) ↔
    signedUnits s a < signedUnits t b := nearestPlace_lt_iff
  have above : f.nearestPlace (signedUnits t b) < f.nearestPlace (signedUnits s a) ↔
    signedUnits t b < signedUnits s a := nearestPlace_lt_iff
  simp [same, place_finite]
  omega

theorem signedUnits_not (s : Bool) (a : Fin f.ranks) : signedUnits (!s) a = -signedUnits s a := by
  cases s <;> simp [signedUnits]

theorem signedUnits_natAbs (s : Bool) (a : Fin f.ranks) :
    signedUnits false a = (signedUnits s a).natAbs := by
  cases s <;> simp [signedUnits]

/-- The number that a finite number stands for. -/
def rational : Floating f → ℚ
  | .finite negative rank => signedUnits negative rank / f.one
  | _ => 0

theorem rational_lt_of_lt (finite : x.isFinite = true) (finite' : y.isFinite = true)
    (less : x.lt y = true) : x.rational < y.rational := by
  obtain ⟨s, a, rfl⟩ := eq_finite finite
  obtain ⟨t, b, rfl⟩ := eq_finite finite'
  have positive : (0 : ℚ) < f.one := Nat.cast_pos.2 (Nat.two_pow_pos _)
  exact div_lt_div_of_pos_right (Int.cast_lt.2 (lt_iff_units.1 less)) positive

/-! ### Sums and differences -/

theorem add_finite :
    finite s a + finite t b = ofUnits (s && t) (signedUnits s a + signedUnits t b) := rfl

theorem sub_finite :
    finite s a - finite t b = ofUnits (s && !t) (signedUnits s a - signedUnits t b) := by
  change ofUnits (s && !t) (signedUnits s a + signedUnits (!t) b) = _
  rw [signedUnits_not]
  rfl

theorem place_add : (finite s a + finite t b).place =
    some (f.nearestPlace (signedUnits s a + signedUnits t b)) := by
  rw [add_finite, place_ofUnits]

theorem place_sub : (finite s a - finite t b).place =
    some (f.nearestPlace (signedUnits s a - signedUnits t b)) := by
  rw [sub_finite, place_ofUnits]

/-- The difference of equal numbers is a zero, negative only as the difference of a negative zero
and a positive one. -/
theorem sub_of_same (same : (finite s a).same (finite t b) = true) :
    finite s a - finite t b = zero (s && !t) := by
  rw [same_iff_units] at same
  rw [sub_finite, same, Int.sub_self]
  rfl

/-! ### Division by zero -/

theorem div_zero {p : Int} (place : x.place = some p) (apart : p ≠ 0) (negative : Bool) :
    x / zero negative = .infinite (decide (p < 0) != negative) := by
  cases x with
  | nan => cases place
  | infinite s =>
    have some_rank := f.ranks_pos
    have sign : decide (p < 0) = s := by
      cases s <;> cases place <;> simp [some_rank]
    rw [sign]
    rfl
  | finite s a =>
    have sign : decide (p < 0) = s ∧ a.val ≠ 0 := by
      cases s <;> cases place <;> simp at apart ⊢ <;> omega
    rw [sign.1]
    have quotient : finite s a / zero negative =
        if a.val = 0 then nan else infinite (s != negative) := rfl
    rw [quotient, if_neg sign.2]

/-- A difference over zero is infinite, its sign that of the difference turned by that of the
zero. -/
theorem sub_div_zero (apart : (finite s a).same (finite t b) = false) (negative : Bool) :
    (finite s a - finite t b) / zero negative =
      .infinite ((finite s a).lt (finite t b) != negative) := by
  rw [Bool.eq_false_iff, Ne, same_iff_units] at apart
  have order : decide (f.nearestPlace (signedUnits s a - signedUnits t b) < 0) =
      (finite s a).lt (finite t b) := by
    rw [Bool.eq_iff_iff, decide_eq_true_iff, lt_iff_units, f.nearestPlace_lt_zero]
    omega
  have some_units : f.nearestPlace (signedUnits s a - signedUnits t b) ≠ 0 := by
    intro zero
    have negative := f.nearestPlace_lt_zero (signedUnits s a - signedUnits t b)
    have positive := f.nearestPlace_pos (signedUnits s a - signedUnits t b)
    omega
  rw [sub_finite, div_zero (place_ofUnits _ _) some_units, order]

theorem zero_div_zero (negative negative' : Bool) :
    (zero negative : Floating f) / zero negative' = .nan := rfl

end Floating

end NodeShader
