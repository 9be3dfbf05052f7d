import Mathlib.Tactic.FieldSimp
import Mathlib.Tactic.Linarith
import Mathlib.Tactic.Ring
import NodeShader.Proofs.Floating.Order
import NodeShader.Proofs.Formula.Meaning

/-!
Between literal bounds in the wrong order, `clamp` and `smoothstep` have two meanings: on a literal
the function is carried out, and on a value of the shader the call is rewritten. Where the two agree
and where they do not.
-/

namespace NodeShader

/-- The numbers in which a formula may be carried out. -/
structure Arithmetic (α : Type) where
  number : Nat → α
  sub : α → α → α
  mul : α → α → α
  div : α → α → α
  greater : α → α → α
  lesser : α → α → α

namespace Arithmetic

section

variable {α : Type} (arithmetic : Arithmetic α)

def clamp (x low high : α) : α := arithmetic.lesser (arithmetic.greater x low) high

/-- How far a smooth rise has come at a share of the way. -/
def eased (share : α) : α :=
  let t := arithmetic.clamp share (arithmetic.number 0) (arithmetic.number 1)
  arithmetic.mul (arithmetic.mul t t)
    (arithmetic.sub (arithmetic.number 3) (arithmetic.mul (arithmetic.number 2) t))

def smoothstep (low high x : α) : α :=
  arithmetic.eased (arithmetic.div (arithmetic.sub x low) (arithmetic.sub high low))

/-- A rise the other way round, taken from one. -/
def falling (low high x : α) : α :=
  arithmetic.sub (arithmetic.number 1) (arithmetic.smoothstep high low x)

end

/-- Numbers of the shading language. -/
def binary32 : Arithmetic F32 where
  number n := .ofDecimal n 0
  sub := (· - ·)
  mul := (· * ·)
  div := (· / ·)
  greater := Floating.max
  lesser := Floating.min

def exact : Arithmetic ℚ where
  number n := n
  sub := (· - ·)
  mul := (· * ·)
  div := (· / ·)
  greater := max
  lesser := min

theorem binary32_number (n : Nat) : binary32.number n = F32.ofDecimal n 0 := rfl

theorem binary32_smoothstep (low high x : F32) :
    binary32.smoothstep low high x = low.smoothstep high x := by
  have zero : F32.ofDecimal 0 0 = .zero false := by decide +kernel
  unfold smoothstep eased F32.smoothstep F32.saturate F32.one
  simp only [binary32_number, zero]
  rfl

/-- Exact shares of the way from either end add up to one. -/
theorem exact_clamp (share : ℚ) : exact.clamp (1 - share) 0 1 = 1 - exact.clamp share 0 1 := by
  change min (max (1 - share) 0) 1 = 1 - min (max share 0) 1
  grind

theorem exact_eased (share : ℚ) : exact.eased (1 - share) = 1 - exact.eased share := by
  have turned := exact_clamp share
  change exact.clamp (1 - share) 0 1 * exact.clamp (1 - share) 0 1 *
    (3 - 2 * exact.clamp (1 - share) 0 1) =
      1 - exact.clamp share 0 1 * exact.clamp share 0 1 * (3 - 2 * exact.clamp share 0 1)
  rw [turned]
  ring

theorem exact_falling {low high : ℚ} (apart : low ≠ high) (x : ℚ) :
    exact.falling low high x = exact.smoothstep low high x := by
  have share : (x - low) / (high - low) = 1 - (x - high) / (low - high) := by
    have := sub_ne_zero.2 apart
    have := sub_ne_zero.2 apart.symm
    field_simp
    ring
  calc
    exact.falling low high x = 1 - exact.eased ((x - high) / (low - high)) := rfl
    _ = exact.eased (1 - (x - high) / (low - high)) := (exact_eased _).symm
    _ = exact.eased ((x - low) / (high - low)) := by rw [share]
    _ = exact.smoothstep low high x := rfl

end Arithmetic

namespace F32

open Arithmetic Floating

theorem eased_nan : binary32.eased .nan = .zero false := by decide +kernel

theorem eased_infinite (negative : Bool) :
    binary32.eased (.infinite negative) = if negative then .zero false else .one := by
  cases negative <;> decide +kernel

/-- Between equal bounds the share of the way is a quotient by zero, and a negative zero turns its
sign. -/
theorem smoothstep_of_same {s t u : Bool} {a b c : Fin Format.binary32.ranks}
    (same : (finite s a).same (finite t b) = true) :
    F32.smoothstep (finite s a) (finite t b) (finite u c) =
      if (finite u c).same (finite s a) = false ∧ (finite u c).lt (finite s a) = (t && !s) then .one
      else .zero false := by
  have width : (finite t b : F32) - finite s a = zero (t && !s) :=
    sub_of_same ((same_comm _ _).trans same)
  have rise : F32.smoothstep (finite s a) (finite t b) (finite u c) =
      binary32.eased ((finite u c - finite s a) / zero (t && !s)) := by
    rw [← binary32_smoothstep, ← width]
    rfl
  rw [rise]
  cases at_edge : (finite u c).same (finite s a) with
  | true =>
    rw [sub_of_same at_edge, zero_div_zero, eased_nan]
    rfl
  | false =>
    rw [sub_div_zero at_edge, eased_infinite]
    cases (finite u c).lt (finite s a) <;> cases (t && !s) <;> rfl

theorem zeros_of_same {s t : Bool} {a b : Fin Format.binary32.ranks}
    (same : (finite s a).same (finite t b) = true) :
    (finite s a : F32) = .zero false ∧ (finite t b : F32) = .zero true ↔ (t && !s) = true := by
  constructor
  · intro zeros
    cases zeros.1
    cases zeros.2
    rfl
  · intro signs
    obtain ⟨rfl, rfl⟩ : t = true ∧ s = false := by simpa using signs
    have opposite : (Format.units .binary32 a : Int) = -Format.units .binary32 b :=
      same_iff_units.1 same
    have := Format.le_units .binary32 a
    have := Format.le_units .binary32 b
    have first : a = ⟨0, Format.ranks_pos _⟩ := Fin.ext (show a.val = 0 by omega)
    have second : b = ⟨0, Format.ranks_pos _⟩ := Fin.ext (show b.val = 0 by omega)
    rw [first, second]
    exact ⟨rfl, rfl⟩

/-- Between equal bounds the rise is a step, but not at the step nor between zeros in the wrong
order. -/
theorem smoothstep_eq_step_iff {low high x : F32} (finite_low : low.isFinite = true)
    (finite_high : high.isFinite = true) (finite_x : x.isFinite = true)
    (same : low.same high = true) : (low.smoothstep high x).orZero = low.step x ↔
      x.same low = false ∧ ¬ (low = .zero false ∧ high = .zero true) := by
  obtain ⟨s, a, rfl⟩ := eq_finite finite_low
  obtain ⟨t, b, rfl⟩ := eq_finite finite_high
  obtain ⟨u, c, rfl⟩ := eq_finite finite_x
  have apart : F32.one ≠ .zero false := by decide +kernel
  have above : (finite s a).le (finite u c) = !(finite u c).lt (finite s a) := by
    rw [Bool.eq_iff_iff, Bool.not_eq_true', Bool.eq_false_iff, Ne, le_iff_units, lt_iff_units]
    omega
  have level : (finite u c).same (finite s a) = true → (finite u c).lt (finite s a) = false := by
    rw [same_iff_units, Bool.eq_false_iff, Ne, lt_iff_units]
    omega
  rw [smoothstep_of_same same, apply_ite F32.orZero, orZero_of_isFinite Formula.isFinite_one, step,
    above, zeros_of_same same]
  change (if _ then F32.one else .zero false) = _ ↔ _
  cases at_edge : (finite u c).same (finite s a) with
  | true => simpa [level at_edge] using apart.symm
  | false =>
    cases (finite u c).lt (finite s a) <;> cases (t && !s) <;> simp [apart, apart.symm]

/-- A clamp does not get above its upper bound. -/
theorem clamp_of_lt {low high x : F32} (finite_low : low.isFinite = true)
    (finite_high : high.isFinite = true) (finite_x : x.isFinite = true)
    (less : high.lt low = true) : x.clamp low high = high := by
  obtain ⟨s, a, rfl⟩ := eq_finite finite_low
  obtain ⟨t, b, rfl⟩ := eq_finite finite_high
  obtain ⟨u, c, rfl⟩ := eq_finite finite_x
  have raised : (finite u c : F32).max (finite s a) =
      if (finite u c).lt (finite s a) = true then finite s a else finite u c := rfl
  have lowered (s : Bool) (a : Fin Format.binary32.ranks)
      (less : (finite t b).lt (finite s a) = true) :
      (finite s a : F32).min (finite t b) = finite t b := if_pos less
  unfold F32.clamp
  rw [raised]
  split
  · exact lowered s a less
  · next above =>
    apply lowered u c
    rw [lt_iff_units] at less above ⊢
    omega

end F32

namespace Formula

variable {setting : Setting} {scope : String → Option Quantity}

variable (setting scope) in
/-- A call that is rewritten, and whose rewritten form has a value. -/
structure Rewritten (function : Builtin) (arguments : List Typed) (value : F32) : Prop where
  rewritten : lowerMisordered? function arguments = some (lowerCall function arguments)
  value : (lowerCall function arguments).code.eval (.quantities setting) scope =
    some (.scalar value)

theorem Rewritten.of_lowerMisordered? {function : Builtin} {arguments : List Typed} {result : Typed}
    {value : F32} (unknown : arguments.mapM Typed.literal? = none)
    (rewritten : lowerMisordered? function arguments = some result)
    (computed : result.code.eval (.quantities setting) scope = some (.scalar value)) :
    Rewritten setting scope function arguments value := by
  have lowered : lowerCall function arguments = result := by
    rw [lowerCall, unknown, rewritten]
    rfl
  rw [← lowered] at rewritten computed
  exact ⟨rewritten, computed⟩

section

variable {low high unknown : Typed} {l h x : F32} (bound : low.literal? = some l)
  (bound' : high.literal? = some h) (runtime : unknown.literal? = none)
  (computes : unknown.Computes setting scope (.scalar x))

include bound bound' runtime computes

theorem rewritten_clamp (less : h.lt l = true) :
    Rewritten setting scope .clamp [unknown, low, high] h := by
  apply Rewritten.of_lowerMisordered? (by simp [runtime])
  · simp only [lowerMisordered?, bound, bound', Option.bind_eq_bind, Option.bind_some]
    exact if_pos less
  · have type : unknown.type = .f32 := computes.type
    rw [eval_splat_quantity (Typed.isFinite_of_literal? bound') computes.narrow, type]
    rfl

theorem rewritten_step (same : l.same h = true) :
    Rewritten setting scope .smoothstep [low, high, unknown] (l.step x) := by
  apply Rewritten.of_lowerMisordered? (by simp [bound, bound', runtime])
  · simp only [lowerMisordered?, bound, bound', Option.bind_eq_bind, Option.bind_some]
    exact if_pos same
  · exact eval_step computes (Typed.isFinite_of_literal? bound)

theorem rewritten_falling (less : h.lt l = true) :
    Rewritten setting scope .smoothstep [low, high, unknown]
      (Arithmetic.binary32.falling l h x) := by
  have apart : l.same h ≠ true := by
    rw [Floating.same_comm, Floating.not_same_of_lt less]
    nofun
  have falling : Arithmetic.binary32.falling l h x = F32.one - h.smoothstep l x := by
    rw [Arithmetic.falling, Arithmetic.binary32_smoothstep, Arithmetic.binary32_number]
    rfl
  apply Rewritten.of_lowerMisordered? (by simp [bound, bound', runtime])
  · simp only [lowerMisordered?, bound, bound', Option.bind_eq_bind, Option.bind_some]
    exact (if_neg apart).trans (if_pos less)
  · rw [falling]
    exact eval_falling computes (Typed.isFinite_of_literal? bound)
      (Typed.isFinite_of_literal? bound')

end

theorem literal?_lowerCall (function : Builtin) {arguments : List Typed} {values : List F32}
    (known : arguments.mapM Typed.literal? = some values) :
    (lowerCall function arguments).literal? = some (function.apply values).orZero := by
  rw [lowerCall, known]
  rfl

/-- What a call between literal bounds in the wrong order is rewritten to computes, for a value of
the shader, what the call is folded to for the literal of that value: for `clamp` always, for a
`smoothstep` between different bounds if both are computed exactly, and between equal bounds apart
from the bound itself and from a negative zero above a positive one. -/
theorem lowerCall_misordered {low high literal unknown : Typed} {l h x : F32}
    (bound : low.literal? = some l) (bound' : high.literal? = some h)
    (known : literal.literal? = some x) (runtime : unknown.literal? = none)
    (computes : unknown.Computes setting scope (.scalar x)) :
    (h.lt l = true →
      Rewritten setting scope .clamp [unknown, low, high] h ∧
      (lowerCall .clamp [literal, low, high]).literal? = some h ∧
      Rewritten setting scope .smoothstep [low, high, unknown]
        (Arithmetic.binary32.falling l h x) ∧
      (lowerCall .smoothstep [low, high, literal]).literal? =
        some (Arithmetic.binary32.smoothstep l h x).orZero ∧
      Arithmetic.exact.falling l.rational h.rational x.rational =
        Arithmetic.exact.smoothstep l.rational h.rational x.rational) ∧
    (l.same h = true →
      Rewritten setting scope .smoothstep [low, high, unknown] (l.step x) ∧
      ∃ folded, (lowerCall .smoothstep [low, high, literal]).literal? = some folded ∧
        (folded = l.step x ↔
          x.same l = false ∧ ¬ (l = .zero false ∧ h = .zero true))) := by
  have finite_low := Typed.isFinite_of_literal? bound
  have finite_high := Typed.isFinite_of_literal? bound'
  have finite_x := Typed.isFinite_of_literal? known
  have rise : (lowerCall .smoothstep [low, high, literal]).literal? =
      some (Builtin.smoothstep.apply [l, h, x]).orZero :=
    literal?_lowerCall .smoothstep (by simp [bound, bound', known])
  have clamped : (lowerCall .clamp [literal, low, high]).literal? =
      some (Builtin.clamp.apply [x, l, h]).orZero :=
    literal?_lowerCall .clamp (by simp [bound, bound', known])
  constructor
  · intro less
    refine ⟨rewritten_clamp bound bound' runtime computes less, ?_,
      rewritten_falling bound bound' runtime computes less, ?_, ?_⟩
    · rw [clamped, Builtin.apply, F32.clamp_of_lt finite_low finite_high finite_x less,
        F32.orZero_of_isFinite finite_high]
    · rw [rise, Arithmetic.binary32_smoothstep, Builtin.apply]
    · exact Arithmetic.exact_falling
        (ne_of_gt (Floating.rational_lt_of_lt finite_high finite_low less)) _
  · intro same
    exact ⟨rewritten_step bound bound' runtime computes same, _, rise,
      F32.smoothstep_eq_step_iff finite_low finite_high finite_x same⟩

/-- The time, as the shader has it. -/
def clock : Typed := ⟨.name "u_time", .f32⟩

def atTime (time : F32) : Setting where
  position := (.zero false, .zero false)
  time := time
  measure _ _ := .zero false

def namesAt (time : F32) : String → Option Quantity :=
  (Store.start (.quantities (atTime time))).names

theorem computes_clock (time : F32) :
    clock.Computes (atTime time) (namesAt time) (.scalar time) := ⟨rfl, rfl⟩

theorem runtime_clock : clock.literal? = none := by decide +kernel

def half : F32 := .ofDecimal 5 (-1)

/-- At the time of a half, bounds one and zero and bounds that are both one. -/
theorem unit_misordered :
    Rewritten (atTime half) (namesAt half) .clamp [clock, .literal .one, .literal (.zero false)]
        (.zero false) ∧
      (lowerCall .clamp [.literal half, .literal .one, .literal (.zero false)]).literal? =
        some (.zero false) ∧
      Rewritten (atTime half) (namesAt half) .smoothstep
        [.literal .one, .literal (.zero false), clock] half ∧
      (lowerCall .smoothstep [.literal .one, .literal (.zero false), .literal half]).literal? =
        some half ∧
      Rewritten (atTime half) (namesAt half) .smoothstep [.literal .one, .literal .one, clock]
        (.zero false) ∧
      (lowerCall .smoothstep [.literal .one, .literal .one, .literal half]).literal? =
        some (.zero false) := by
  have one : (Typed.literal .one).literal? = some F32.one := by decide +kernel
  have low : (Typed.literal (.zero false)).literal? = some (.zero false) := rfl
  have known : (Typed.literal half).literal? = some half := by decide +kernel
  obtain ⟨clamped, clamped', falling, falling', -⟩ :=
    (lowerCall_misordered one low known runtime_clock (computes_clock half)).1 (by decide +kernel)
  obtain ⟨stepped, folded, known', agrees⟩ :=
    (lowerCall_misordered one one known runtime_clock (computes_clock half)).2 (by decide +kernel)
  have falls : Arithmetic.binary32.falling .one (.zero false) half = half := by decide +kernel
  have rises : (Arithmetic.binary32.smoothstep .one (.zero false) half).orZero = half := by
    decide +kernel
  have below : F32.step .one half = .zero false := by decide +kernel
  rw [agrees.2 (by decide +kernel), below] at known'
  rw [falls] at falling
  rw [rises] at falling'
  rw [below] at stepped
  exact ⟨clamped, clamped', falling, falling', stepped, known'⟩

/-- A step at a half, taken there, and a step between zeros in the wrong order. -/
theorem equal_bounds_differ :
    Rewritten (atTime half) (namesAt half) .smoothstep [.literal half, .literal half, clock] .one ∧
      (lowerCall .smoothstep [.literal half, .literal half, .literal half]).literal? =
        some (.zero false) ∧
      Rewritten (atTime .one) (namesAt .one) .smoothstep
        [.literal (.zero false), .literal (.zero true), clock] .one ∧
      (lowerCall .smoothstep
        [.literal (.zero false), .literal (.zero true), .literal .one]).literal? =
        some (.zero false) := by
  have stepped := rewritten_step (Typed.literal?_literal half) (Typed.literal?_literal half)
    runtime_clock (computes_clock half) (by decide +kernel)
  have stepped' := rewritten_step (Typed.literal?_literal (.zero false))
    (Typed.literal?_literal (.zero true)) runtime_clock (computes_clock .one) (by decide +kernel)
  have one : F32.step half.orZero half = .one := by decide +kernel
  have one' : F32.step (F32.orZero (.zero false)) .one = .one := by decide +kernel
  rw [one] at stepped
  rw [one'] at stepped'
  refine ⟨stepped, ?_, stepped', ?_⟩
  · decide +kernel
  · decide +kernel

end Formula

end NodeShader
