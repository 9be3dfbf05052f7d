import NodeShader.Json.Document

/-!
JSON values: what a document means once every part of it is kept. Keys are unique.
-/

namespace NodeShader

inductive Json where
  | null
  | bool (value : Bool)
  | number (value : Number)
  | string (value : String)
  | array (items : List Json)
  | object (members : List (String × Json))

/-- Puts an entry into a table; an entry of the same key gives way. -/
def putEntry {α : Type} (entries : List (String × α)) (key : String) (value : α) :
    List (String × α) :=
  if entries.any (·.1 == key) then
    entries.map fun entry => if entry.1 == key then (key, value) else entry
  else entries ++ [(key, value)]

theorem lookup_replaced {α : Type} (entries : List (String × α)) (key other : String) (value : α) :
    (entries.map fun entry => if entry.1 == key then (key, value) else entry).lookup other =
      if other = key then (if entries.any (·.1 == key) then some value else none)
      else entries.lookup other := by
  induction entries with
  | nil => simp
  | cons entry rest ih =>
    obtain ⟨name, held⟩ := entry
    simp only [List.map_cons, List.any_cons]
    by_cases same : name = key
    · subst same
      by_cases h : other = name
      · simp [h]
      · simpa [List.lookup_cons, h, beq_eq_false_iff_ne.2 h] using ih
    · have apart : (name == key) = false := beq_eq_false_iff_ne.2 same
      simp only [apart, Bool.false_eq_true, if_false, Bool.false_or, List.lookup_cons, ih]
      by_cases h : other = name
      · subst h
        simp [same]
      · simp [beq_eq_false_iff_ne.2 h]

theorem lookup_putEntry {α : Type} (entries : List (String × α)) (key other : String) (value : α) :
    (putEntry entries key value).lookup other =
      if other = key then some value else entries.lookup other := by
  unfold putEntry
  split
  · next present => simp only [lookup_replaced, present, if_true]
  · next absent =>
    rw [List.lookup_append]
    by_cases h : other = key
    · subst h
      have missing : entries.lookup other = none := by
        refine List.lookup_eq_none_iff.2 fun entry member => ?_
        have := List.any_eq_false.1 (Bool.eq_false_iff.2 absent) entry member
        exact bne_iff_ne.2 fun same => this (beq_iff_eq.2 same.symm)
      simp [missing]
    · simp [List.lookup_cons, h, beq_eq_false_iff_ne.2 h]

namespace Document

/-- How many arrays and objects may stand inside one another. -/
def maxLevels : Nat := 127

/-- The value of a document with at most `levels` levels, of which every part denotes something. -/
def value? : (levels : Nat) → Document → Option Json
  | _, .null => some .null
  | _, .bool value => some (.bool value)
  | _, .number value => value.map .number
  | _, .string value => value.map .string
  | 0, .array _ | 0, .object _ => none
  | levels + 1, .array items => (items.mapM (value? levels)).map .array
  | levels + 1, .object members => do
    let entries ← members.mapM fun (key, member) => do
      some (← key, ← value? levels member)
    some (.object (entries.foldl (fun table (key, value) => putEntry table key value) []))

end Document

namespace Json

mutual

def decEq : (value other : Json) → Decidable (value = other)
  | .null, .null => isTrue rfl
  | .bool value, .bool other => decidable_of_iff (value = other) (by simp)
  | .number value, .number other => decidable_of_iff (value = other) (by simp)
  | .string value, .string other => decidable_of_iff (value = other) (by simp)
  | .array items, .array others =>
    have := decEqItems items others
    decidable_of_iff (items = others) (by simp)
  | .object members, .object others =>
    have := decEqMembers members others
    decidable_of_iff (members = others) (by simp)
  | .null, .bool _ | .null, .number _ | .null, .string _ | .null, .array _ | .null, .object _
  | .bool _, .null | .bool _, .number _ | .bool _, .string _ | .bool _, .array _
  | .bool _, .object _ | .number _, .null | .number _, .bool _ | .number _, .string _
  | .number _, .array _ | .number _, .object _ | .string _, .null | .string _, .bool _
  | .string _, .number _ | .string _, .array _ | .string _, .object _ | .array _, .null
  | .array _, .bool _ | .array _, .number _ | .array _, .string _ | .array _, .object _
  | .object _, .null | .object _, .bool _ | .object _, .number _ | .object _, .string _
  | .object _, .array _ => isFalse nofun

def decEqItems : (items others : List Json) → Decidable (items = others)
  | [], [] => isTrue rfl
  | [], _ :: _ | _ :: _, [] => isFalse nofun
  | item :: rest, other :: others =>
    have := decEq item other
    have := decEqItems rest others
    decidable_of_iff (item = other ∧ rest = others) (by simp)

def decEqMembers : (members others : List (String × Json)) → Decidable (members = others)
  | [], [] => isTrue rfl
  | [], _ :: _ | _ :: _, [] => isFalse nofun
  | (key, value) :: rest, (other, value') :: others =>
    have := decEq value value'
    have := decEqMembers rest others
    decidable_of_iff (key = other ∧ value = value' ∧ rest = others) (by simp [and_assoc])

end

instance : DecidableEq Json := decEq

def read? (text : String) : Option Json := do
  (← Document.read? text).value? Document.maxLevels

mutual

/-- The value as a document. -/
def document : Json → Document
  | .null => .null
  | .bool value => .bool value
  | .number value => .number (some value)
  | .string value => .string (some value)
  | .array items => .array (documents items)
  | .object members => .object (documentMembers members)

def documents : List Json → List Document
  | [] => []
  | item :: rest => item.document :: documents rest

def documentMembers : List (String × Json) → List (Option String × Document)
  | [] => []
  | (key, value) :: rest => (some key, value.document) :: documentMembers rest

end

/-- The member of a key, if the value is an object that has it. -/
def get? (key : String) : Json → Option Json
  | .object members => members.lookup key
  | _ => none

end Json

end NodeShader
