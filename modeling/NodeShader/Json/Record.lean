import NodeShader.Json.Value

/-!
Reading typed data out of documents. A record is an object of its fields, other members being
skipped, or an array of its fields in order.
-/

namespace NodeShader

/-- Reads data from a document in which so many more levels may be opened. -/
abbrev Decoder (α : Type) := (levels : Nat) → Document → Option α

namespace Decoder

def text : Decoder String
  | _, .string value => value
  | _, _ => none

def flag : Decoder Bool
  | _, .bool value => some value
  | _, _ => none

/-- A whole number of 64 bits. -/
def whole : Decoder Nat
  | _, .number (some (.integer value)) =>
    if 0 ≤ value ∧ value < UInt64.size then some value.toNat else none
  | _, _ => none

def json : Decoder Json := Document.value?

/-- Null, or what `decoder` reads. -/
def optional {α : Type} (decoder : Decoder α) : Decoder (Option α)
  | _, .null => some none
  | levels, document => (decoder levels document).map some

def list {α : Type} (decoder : Decoder α) : Decoder (List α)
  | levels + 1, .array items => items.mapM (decoder levels)
  | _, _ => none

/-- A table of keys, in which the last entry of a key counts. -/
def table {α : Type} (decoder : Decoder α) : Decoder (List (String × α))
  | levels + 1, .object members => do
    let entries ← members.mapM fun (key, member) => do
      some (← key, ← decoder levels member)
    some (entries.foldl (fun table (key, value) => putEntry table key value) [])
  | _, _ => none

/-- The documents of a record's fields, each known by one of its names; none for a field that is
absent. A field must not be given twice. -/
def members? (fields : List (List String)) (members : List (Option String × Document)) :
    Option (List (Option Document)) := do
  let named ← members.mapM fun (key, member) => do some (← key, member)
  fields.mapM fun names =>
    match named.filter fun (key, _) => names.contains key with
    | [] => some none
    | [(_, member)] => some (some member)
    | _ => none

/-- The documents of a record's fields. -/
def fields? (fields : List (List String)) : Document → Option (List (Option Document))
  | .object members => members? fields members
  | .array items =>
    if items.length ≤ fields.length then
      some (items.map some ++ List.replicate (fields.length - items.length) none)
    else none
  | _ => none

/-- A record of the named fields, put together by `build`, which gets a reader for each field. -/
def record {α : Type} (names : List (List String))
    (build : (levels : Nat) → List (Option Document) → Option α) : Decoder α
  | 0, _ => none
  | levels + 1, document => do build levels (← fields? names document)

/-- A field that must be there. -/
def required {α : Type} (decoder : Decoder α) (levels : Nat) (field : Option Document) :
    Option α := do
  decoder levels (← field)

/-- A field that has a default. -/
def withDefault {α : Type} (default : α) (decoder : Decoder α) (levels : Nat)
    (field : Option Document) : Option α :=
  match field with
  | none => some default
  | some document => decoder levels document

/-- One of several names, or an object that gives one of them a null. -/
def name {α : Type} (known : List (String × α)) : Decoder α
  | _, .string value => do known.lookup (← value)
  | _ + 1, .object [(key, .null)] => do known.lookup (← key)
  | _, _ => none

end Decoder

end NodeShader
