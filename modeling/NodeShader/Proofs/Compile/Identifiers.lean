import Mathlib.Data.List.Nodup
import Mathlib.Data.List.Perm.Subperm
import Mathlib.Order.Bounds.Defs
import NodeShader.Compile.Identifiers
import NodeShader.Proofs.Compile.Outcome

/-!
Allocation of identifiers: a new id gets an identifier that nobody owns, made from the id itself.
-/

namespace NodeShader

namespace Identifiers

theorem numbered_injective (base : String) {m n : Nat} (same : numbered base m = numbered base n) :
    m = n := by
  have texts := congrArg String.toList same
  simp only [numbered, String.toList_append, List.append_assoc, List.append_cancel_left_eq,
    toString, Nat.toList_repr] at texts
  have values := congrArg (Nat.ofDigitChars 10 · 0) texts
  simpa only [Nat.ofDigitChars_ten_toDigits] using values

theorem numbered_ne_base (base : String) (number : Nat) : numbered base number ≠ base := by
  intro same
  have lengths := congrArg (List.length ∘ String.toList) same
  simp only [Function.comp_apply, numbered, String.toList_append, List.length_append] at lengths
  have : "_".toList.length = 1 := rfl
  omega

theorem owner?_isSome_iff (identifiers : Identifiers) (identifier : String) :
    (identifiers.owner? identifier).isSome ↔ identifier ∈ identifiers.owners.map (·.1) := by
  rw [owner?, List.lookup_isSome_iff, List.mem_map]
  refine exists_congr fun owner => and_congr_right fun _ => ?_
  rw [beq_iff_eq, eq_comm]

/-- The number is the least that is free. Not all numbers that are tried can be owned: with the bare
identifier they are more than there are owners. -/
theorem isLeast_freeNumber (identifiers : Identifiers) {base : String}
    (taken : (identifiers.owner? base).isSome) :
    IsLeast {number | 2 ≤ number ∧ identifiers.owner? (numbered base number) = none}
      (identifiers.freeNumber base) := by
  let free (number : Nat) : Bool := (identifiers.owner? (numbered base number)).isNone
  let numbers := List.range' 2 identifiers.owners.length
  have found : (numbers.find? free).isSome := by
    by_contra none_free
    rw [Bool.not_eq_true, Option.isSome_eq_false_iff, Option.isNone_iff_eq_none,
      List.find?_eq_none] at none_free
    have owned : base :: numbers.map (numbered base) ⊆ identifiers.owners.map (·.1) := by
      intro identifier member
      rw [← owner?_isSome_iff]
      rcases List.mem_cons.1 member with rfl | member
      · exact taken
      · rcases List.mem_map.1 member with ⟨number, tried, rfl⟩
        simpa [free, Option.isSome_iff_ne_none] using none_free number tried
    have distinct : (base :: numbers.map (numbered base)).Nodup := by
      refine List.nodup_cons.2 ⟨?_, ?_⟩
      · intro member
        rcases List.mem_map.1 member with ⟨number, _, same⟩
        exact numbered_ne_base base number same
      · exact (List.nodup_range' ..).map fun _ _ same => numbered_injective base same
    have few := (List.subperm_of_subset distinct owned).length_le
    simp only [List.length_cons, List.length_map, numbers, List.length_range'] at few
    omega
  rcases Option.isSome_iff_exists.1 found with ⟨number, found⟩
  have chosen : identifiers.freeNumber base = number := by
    rw [freeNumber]
    exact congrArg (Option.getD · _) found
  rcases List.find?_range'_eq_some.1 found with ⟨passes, tried, others⟩
  have above : 2 ≤ number := (List.mem_range'_1.1 tried).1
  rw [chosen]
  refine ⟨⟨above, Option.isNone_iff_eq_none.1 passes⟩, fun other given => ?_⟩
  by_contra less
  have owned := others other given.1 (Nat.lt_of_not_le less)
  simp [free, given.2] at owned

/-- An identifier that may be given to an id: the bare one or a numbered one. -/
def Suits (id identifier : String) : Prop :=
  identifier = base id ∨ ∃ number, identifier = numbered (base id) number

/-- Words that start with `n_`; no other name in a program does. -/
def IsProper (identifier : String) : Prop :=
  ∃ others, identifier.toList = 'n' :: '_' :: others ∧ ∀ c ∈ others, Code.isWordChar c = true

theorem isProper_base (id : String) : IsProper (base id) := by
  refine ⟨(sanitized id).toList, String.toList_append, fun c member => ?_⟩
  rw [sanitized, String.toList_ofList] at member
  rcases List.mem_map.1 member with ⟨original, -, rfl⟩
  split
  · assumption
  · rfl

theorem Suits.isProper {id identifier : String} (suits : Suits id identifier) :
    IsProper identifier := by
  rcases isProper_base id with ⟨others, text, word⟩
  rcases suits with rfl | ⟨number, rfl⟩
  · exact ⟨others, text, word⟩
  · refine ⟨others ++ '_' :: Nat.toDigits 10 number, ?_, ?_⟩
    · rw [numbered, String.toList_append, String.toList_append, text]
      simp [toString, Nat.toList_repr]
    · intro c member
      rcases List.mem_append.1 member with member | member
      · exact word c member
      · rcases List.mem_cons.1 member with rfl | member
        · rfl
        · have digit : c.isDigit := Nat.isDigit_of_mem_toDigits (by decide) (by decide) member
          simp [Code.isWordChar, Char.isAlphanum, digit]

/-- All that an allocation can do: give an id the identifier that it has, give a new id the bare one,
reject it because that one is owned, or give it a numbered one. -/
inductive Allocates (identifiers : Identifiers) (id : String) :
    Bool → Except CompileError (String × Identifiers) → Prop where
  | known {strict : Bool} {identifier : String} (given : identifiers.given? id = some identifier) :
      Allocates identifiers id strict (.ok (identifier, identifiers))
  | bare {strict : Bool} (new : identifiers.given? id = none)
      (free : identifiers.owner? (base id) = none) :
      Allocates identifiers id strict (.ok (base id, identifiers.give id (base id)))
  | rejected {owner : String} (new : identifiers.given? id = none)
      (owned : identifiers.owner? (base id) = some owner) :
      Allocates identifiers id true (.error (.sameIdentifier owner id (base id)))
  | numbered {owner : String} (new : identifiers.given? id = none)
      (owned : identifiers.owner? (base id) = some owner) {number : Nat}
      (least : IsLeast {number | 2 ≤ number ∧
        identifiers.owner? (numbered (base id) number) = none} number) :
      Allocates identifiers id false
        (.ok (numbered (base id) number, identifiers.give id (numbered (base id) number)))

theorem allocates (identifiers : Identifiers) (id : String) (strict : Bool) :
    identifiers.Allocates id strict (identifiers.allocate id strict).result := by
  unfold allocate
  split
  · next identifier given => exact .known given
  · next new =>
    dsimp only
    split
    · next free => exact .bare new free
    · next owner owned =>
      cases strict with
      | true => exact .rejected new owned
      | false => exact .numbered new owned (identifiers.isLeast_freeNumber (by rw [owned]; rfl))

variable {identifiers next : Identifiers} {id identifier : String} {strict : Bool}

/-- What an allocation for a new id does: it rejects the id or gives it an unowned identifier, the
bare one when nobody owns that. -/
theorem allocate_new (new : identifiers.given? id = none)
    (allocated : (identifiers.allocate id strict).result = .ok (identifier, next)) :
    identifiers.owner? identifier = none ∧ next = identifiers.give id identifier ∧
      Suits id identifier ∧ (strict = true → identifier = base id) := by
  have done := identifiers.allocates id strict
  rw [allocated] at done
  cases done with
  | known given =>
    rw [new] at given
    cases given
  | bare _ free => exact ⟨free, rfl, .inl rfl, fun _ => rfl⟩
  | numbered _ _ least => exact ⟨least.1.2, rfl, .inr ⟨_, rfl⟩, nofun⟩

theorem allocate_error_iff (new : identifiers.given? id = none) :
    (∃ error, (identifiers.allocate id strict).result = .error error) ↔
      strict = true ∧ (identifiers.owner? (base id)).isSome := by
  have done := identifiers.allocates id strict
  generalize (identifiers.allocate id strict).result = result at done
  cases done with
  | known given =>
    rw [new] at given
    cases given
  | bare _ free => simp [free]
  | rejected _ owned => simp [owned]
  | numbered => simp

theorem allocate_lenient {result : String × Identifiers}
    (allocated : (identifiers.allocate id strict).result = .ok result) :
    (identifiers.allocate id false).result = .ok result := by
  cases strict with
  | false => exact allocated
  | true =>
    simp only [allocate] at allocated ⊢
    split at allocated
    · exact allocated
    · split at allocated
      · exact allocated
      · cases allocated

/-- Each identifier is owned by the id that it was given to, and by no other. -/
def Exclusive (identifiers : Identifiers) : Prop := ∀ id identifier,
  identifiers.given? id = some identifier ↔ identifiers.owner? identifier = some id

theorem exclusive_empty : empty.Exclusive := by simp [Exclusive, empty, given?, owner?]

theorem Exclusive.give (exclusive : identifiers.Exclusive) (new : identifiers.given? id = none)
    (free : identifiers.owner? identifier = none) : (identifiers.give id identifier).Exclusive := by
  intro other name
  rw [given?_give, owner?_give]
  split
  · next here =>
    subst here
    split
    · next same => simp [same]
    · next different =>
      rw [← exclusive, new]
      simp [Ne.symm different]
  · next elsewhere =>
    split
    · next same =>
      rw [exclusive, same, free]
      simp [Ne.symm elsewhere]
    · exact exclusive other name

theorem Exclusive.allocate (exclusive : identifiers.Exclusive)
    (allocated : (identifiers.allocate id strict).result = .ok (identifier, next)) :
    next.Exclusive := by
  have done := identifiers.allocates id strict
  rw [allocated] at done
  cases done with
  | known => exact exclusive
  | bare new free => exact exclusive.give new free
  | numbered new _ least => exact exclusive.give new least.1.2

end Identifiers

end NodeShader
