import NodeShader.Proofs.Formula.Typing
import NodeShader.Proofs.Wgsl.Relabelling

/-!
The names that stand in the slots of a formula are names and nothing else: other names, whatever
letters they are made of, give the same code with the one name where the other was.
-/

namespace NodeShader

namespace Typed

/-- A scalar or a pair whose code calls nothing but what formulas call. -/
def CallsKnown (x : Typed) : Prop := (x.type = .f32 ∨ x.type = .vec2f) ∧ x.code.CallsKnown

theorem callsKnown_literal (value : F32) : (literal value).CallsKnown := ⟨.inl rfl, trivial⟩

theorem CallsKnown.convert {x : Typed} (known : x.CallsKnown) {target : ValueType}
    (narrow : target = .f32 ∨ target = .vec2f) : (x.convert target).CallsKnown := by
  refine ⟨narrow, ?_⟩
  obtain ⟨code, type⟩ := x
  obtain ⟨narrow', called⟩ := known
  rcases narrow' with rfl | rfl <;> rcases narrow with rfl | rfl
  · exact called
  · exact ⟨.inl rfl, called, trivial⟩
  · have component := Code.callsKnown_select called
    exact ⟨⟨component "x", component "y"⟩, trivial⟩
  · exact called

end Typed

namespace Formula

theorem callsKnown_splat (value : F32) {type : ValueType} (narrow : type = .f32 ∨ type = .vec2f) :
    (splat value type).CallsKnown :=
  ((Typed.callsKnown_literal value).convert narrow).2

theorem callsKnown_call (function : Builtin) {codes : List Code}
    (known : ∀ code ∈ codes, code.CallsKnown) : (Code.call function.name codes).CallsKnown :=
  ⟨.inr ⟨function, rfl⟩, Code.allCallKnown_iff.2 known⟩

theorem callsKnown_lowerNegate {x : Typed} (known : x.CallsKnown) :
    (lowerNegate x).CallsKnown := by
  unfold lowerNegate
  split
  · exact Typed.callsKnown_literal _
  · exact known

theorem callsKnown_lowerBinary (operator : Operator) {x y : Typed} (known : x.CallsKnown)
    (known' : y.CallsKnown) : (lowerBinary operator x y).CallsKnown := by
  constructor
  · rw [lowerBinary_type]
    exact widest_narrow (by simp [known.1, known'.1])
  · unfold lowerBinary
    split
    · trivial
    · exact ⟨known.2, known'.2⟩

theorem callsKnown_lowerMisordered? {function : Builtin} {xs : List Typed} {x : Typed}
    (known : ∀ x ∈ xs, x.CallsKnown) (recast : lowerMisordered? function xs = some x) :
    x.code.CallsKnown := by
  cases recast_of_lowerMisordered? recast with
  | @clamp y => exact callsKnown_splat _ (known y (by simp)).1
  | @step _ _ y lowValue =>
    obtain ⟨narrow, code⟩ := known y (by simp)
    exact callsKnown_call .step (by simp [callsKnown_splat, narrow, code])
  | @falling _ _ y lowValue highValue =>
    obtain ⟨narrow, code⟩ := known y (by simp)
    refine ⟨callsKnown_splat .one narrow, callsKnown_call .smoothstep ?_⟩
    simp [callsKnown_splat, narrow, code]

theorem widest_known {xs : List Typed} (known : ∀ x ∈ xs, x.CallsKnown) :
    ValueType.widest (xs.map (·.type)) = .f32 ∨ ValueType.widest (xs.map (·.type)) = .vec2f :=
  widest_narrow (by simpa using fun x member => (known x member).1)

theorem callsKnown_lowerPlainCall (function : Builtin) {xs : List Typed}
    (known : ∀ x ∈ xs, x.CallsKnown) : (lowerPlainCall function xs).code.CallsKnown := by
  rcases lowerPlainCall_cases function xs rfl with ⟨x, y, rfl, rfl, -, same⟩ | ⟨-, same⟩
  · rw [same]
    have first := (known x (by simp)).convert (.inl rfl)
    have second := (known y (by simp)).convert (.inl rfl)
    exact ⟨first.2, second.2⟩
  · rw [same]
    refine callsKnown_call function fun code member => ?_
    obtain ⟨x, given, rfl⟩ := List.mem_map.1 member
    exact ((known x given).convert (widest_known known)).2

theorem callsKnown_lowerCall (function : Builtin) {xs : List Typed}
    (known : ∀ x ∈ xs, x.CallsKnown) : (lowerCall function xs).CallsKnown := by
  constructor
  · rw [lowerCall_type]
    split
    · exact .inl rfl
    · exact widest_known known
  · unfold lowerCall
    split
    · trivial
    · cases recast : lowerMisordered? function xs with
      | none => exact callsKnown_lowerPlainCall function known
      | some x => exact callsKnown_lowerMisordered? known recast

theorem callsKnown_lowerSwizzle (components : Swizzle) {x y : Typed} (known : x.CallsKnown)
    (selected : lowerSwizzle x components = .ok y) : y.CallsKnown := by
  unfold lowerSwizzle at selected
  split at selected
  · cases selected
  · cases selected
    refine ⟨?_, Code.callsKnown_select known.2 components.text⟩
    cases components
    · exact .inl rfl
    · exact .inr rfl

/-- The code of a formula calls nothing else if the codes in its slots do not. -/
theorem kept_callsKnown : Kept fun x y => x = y ∧ x.CallsKnown :=
  .alone Typed.callsKnown_literal callsKnown_lowerNegate callsKnown_lowerBinary
    (fun function _ _ => callsKnown_lowerCall function) callsKnown_lowerSwizzle

end Formula

/-! ### Names in slots -/

/-- A name for each slot; no two are the same, and none is a function of formulas. -/
structure SlotNames where
  name : Slot → String
  isName : ∀ slot, Lexeme.isName (name slot) = true
  injective : Function.Injective name
  builtin : ∀ slot, ∀ function : Builtin, name slot ≠ function.name
  pair : ∀ slot, name slot ≠ "vec2f"

namespace SlotNames

variable (names others : SlotNames)

def environment : Environment where
  a := ⟨.name (names.name .a), .f32⟩
  b := ⟨.name (names.name .b), .f32⟩
  time := ⟨.name (names.name .time), .f32⟩
  uv := ⟨.name (names.name .uv), .vec2f⟩

/-- The slot that a word names. -/
def slot? (word : String) : Option Slot :=
  [Slot.a, .b, .time, .uv].find? fun slot => names.name slot == word

/-- The other name of the slot that a word names, or else the word. -/
def exchange (word : String) : String := (names.slot? word).elim word others.name

variable {names others} {word : String} {slot : Slot}

theorem slot?_name (names : SlotNames) (slot : Slot) :
    names.slot? (names.name slot) = some slot := by
  have same (other : Slot) : (names.name other == names.name slot) = (other == slot) := by
    rw [Bool.eq_iff_iff, beq_iff_eq, beq_iff_eq, names.injective.eq_iff]
  simp only [slot?, same]
  cases slot <;> rfl

theorem name_of_slot? (named : names.slot? word = some slot) : names.name slot = word :=
  beq_iff_eq.1 (List.find?_some (p := fun slot => names.name slot == word) named)

theorem exchange_name (names others : SlotNames) (slot : Slot) :
    names.exchange others (names.name slot) = others.name slot := by
  rw [exchange, slot?_name]
  rfl

theorem exchange_other (other : ∀ slot, names.name slot ≠ word) :
    names.exchange others word = word := by
  cases named : names.slot? word with
  | none =>
    rw [exchange, named]
    rfl
  | some slot => exact absurd (name_of_slot? named) (other slot)

theorem relabels (names others : SlotNames) : Relabels (names.exchange others) where
  name word name := by
    cases named : names.slot? word with
    | none =>
      rw [exchange, named]
      exact name
    | some slot =>
      rw [exchange, named]
      exact others.isName slot
  fixes word no_name := by
    refine exchange_other fun slot same => ?_
    rw [← same, names.isName] at no_name
    cases no_name
  function function := exchange_other fun slot => names.builtin slot function
  pair := exchange_other names.pair

theorem environment_code (names : SlotNames) (slot : Slot) :
    (names.environment.get slot).code = .name (names.name slot) := by
  cases slot <;> rfl

theorem environment_types (names others : SlotNames) (slot : Slot) :
    (names.environment.get slot).type = (others.environment.get slot).type := by
  cases slot <;> rfl

theorem stands_environment (names others : SlotNames) (slot : Slot) :
    (names.environment.get slot).Stands (Code.rename (names.exchange others)) (fun code => code)
      (others.environment.get slot) := by
  have unknown (names : SlotNames) : (names.environment.get slot).literal? = none := by
    cases slot <;> exact Typed.literal?_name (names.isName _) _
  refine ⟨environment_types names others slot, (unknown names).trans (unknown others).symm, ?_⟩
  rw [environment_code, environment_code, Code.rename, exchange_name]

theorem fits_environment (names : SlotNames) (slot : Slot) : (names.environment.get slot).Fits := by
  cases slot <;> exact Typed.fits_name (names.isName _) _

theorem callsKnown_environment (names : SlotNames) (slot : Slot) :
    (names.environment.get slot).CallsKnown := by
  refine ⟨?_, ?_⟩
  · cases slot <;> first | exact .inl rfl | exact .inr rfl
  · rw [environment_code]
    trivial

end SlotNames

namespace Formula

/-- With other names in its slots a formula has code or not just as before. The code has the same
type, and its text is the text with each name that stands for a slot exchanged as a whole word. -/
theorem lower_exchange (names others : SlotNames) {formula : Formula}
    (saturated : formula.Saturated) :
    (∃ x y, lower names.environment formula = .ok x ∧ lower others.environment formula = .ok y ∧
        y.type = x.type ∧ y.text = relabel (names.exchange others) x.text) ∨
      ∃ error error', lower names.environment formula = .error error ∧
        lower others.environment formula = .error error' := by
  have relabels := names.relabels others
  have kept := kept_stands (Code.parallel_rename relabels.isWord)
  cases lowered : lower names.environment formula with
  | ok x =>
    obtain ⟨y, lowered', stands⟩ :=
      kept.lower (names.stands_environment others) formula saturated lowered
    have fits := kept_fits.holds names.fits_environment saturated lowered
    have known := kept_callsKnown.holds names.callsKnown_environment saturated lowered
    have text := Code.render_relabel relabels x.code fits.1 known.2
    rw [stands.value] at text
    refine .inl ⟨x, y, rfl, lowered', stands.type.symm, ?_⟩
    exact String.toList_injective (text.trans String.toList_ofList.symm)
  | error error =>
    have untyped := (lower_error_iff names.environment formula).1 ⟨error, lowered⟩
    simp only [names.environment_types others] at untyped
    obtain ⟨error', lowered'⟩ := (lower_error_iff others.environment formula).2 untyped
    exact .inr ⟨error, error', rfl, lowered'⟩

theorem ne_of_ofName? {word : String} (unknown : Builtin.ofName? word = none) (function : Builtin) :
    word ≠ function.name := by
  intro same
  rw [same, Builtin.ofName?_name] at unknown
  cases unknown

/-- The names that a node gives to its slots. -/
def declared : Slot → String
  | .a => "n_a"
  | .b => "n_b"
  | .time => "u_time"
  | .uv => "uv"

def declaredNames : SlotNames where
  name := declared
  isName slot := by cases slot <;> decide
  injective slot other := by cases slot <;> cases other <;> decide
  builtin slot := ne_of_ofName? (by cases slot <;> decide +kernel)
  pair slot := by cases slot <;> decide

/-- Names that look like a component, an exponent and numbers that are not finite. -/
def misleading : Slot → String
  | .a => "x"
  | .b => "e5"
  | .time => "nan"
  | .uv => "inf"

def misleadingNames : SlotNames where
  name := misleading
  isName slot := by cases slot <;> decide
  injective slot other := by cases slot <;> cases other <;> decide
  builtin slot := ne_of_ofName? (by cases slot <;> decide +kernel)
  pair slot := by cases slot <;> decide

/-- A component of the position and an input times a number that is written with an exponent. -/
def shifted : Formula :=
  .binary .add (.swizzle (.slot .uv) (.one .x))
    (.call .max [.slot .a, .binary .mul (.number (.ofDecimal 1 20)) (.slot .b)])

theorem shifted_exchange : shifted.Saturated ∧
    ∃ x y, lower misleadingNames.environment shifted = .ok x ∧
      lower declaredNames.environment shifted = .ok y ∧
      x.text = "(inf.x + max(x, (1e20 * e5)))" ∧ y.text = "(uv.x + max(n_a, (1e20 * n_b)))" ∧
      y.text = relabel (misleadingNames.exchange declaredNames) x.text := by
  have saturated : shifted.Saturated := by
    simp [shifted, Saturated, AllSaturated, Builtin.arity]
  have text : (lower misleadingNames.environment shifted).toOption.map (·.text) =
      some "(inf.x + max(x, (1e20 * e5)))" := by decide +kernel
  have text' : (lower declaredNames.environment shifted).toOption.map (·.text) =
      some "(uv.x + max(n_a, (1e20 * n_b)))" := by decide +kernel
  rcases lower_exchange misleadingNames declaredNames saturated with
    ⟨x, y, lowered, lowered', -, same⟩ | ⟨error, -, failed, -⟩
  · rw [lowered] at text
    rw [lowered'] at text'
    exact ⟨saturated, x, y, lowered, lowered', Option.some.inj text, Option.some.inj text', same⟩
  · rw [failed] at text
    cases text

end Formula

end NodeShader
