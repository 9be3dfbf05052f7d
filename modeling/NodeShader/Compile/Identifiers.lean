import NodeShader.Compile.Outcome

/-!
Identifiers of node values. An identifier is made from the id of its node; where two ids give the
same one, the later node's is numbered.
-/

namespace NodeShader

/-- The text with everything that may not stand in an identifier replaced. -/
def sanitized (text : String) : String :=
  String.ofList (text.toList.map fun c => if Code.isWordChar c then c else '_')

/-- The identifiers given out, each with the id it was given to. -/
structure Identifiers where
  owners : List (String × String)

namespace Identifiers

def empty : Identifiers := ⟨[]⟩

def base (id : String) : String := "n_" ++ sanitized id

def numbered (base : String) (number : Nat) : String := base ++ "_" ++ toString number

def owner? (identifiers : Identifiers) (identifier : String) : Option String :=
  identifiers.owners.lookup identifier

/-- The identifier that was given to an id. -/
def given? (identifiers : Identifiers) (id : String) : Option String :=
  (identifiers.owners.find? (·.2 == id)).map (·.1)

/-- The least number from two on that makes an identifier nobody owns; it is found among as many
numbers as there are owners, because the bare identifier takes up one of them. -/
def freeNumber (identifiers : Identifiers) (base : String) : Nat :=
  let count := identifiers.owners.length
  ((List.range' 2 count).find? fun number =>
    (identifiers.owner? (numbered base number)).isNone).getD (count + 2)

def give (identifiers : Identifiers) (id identifier : String) : Identifiers :=
  ⟨(identifier, id) :: identifiers.owners⟩

theorem owner?_give (identifiers : Identifiers) (id identifier other : String) :
    (identifiers.give id identifier).owner? other =
      if other = identifier then some id else identifiers.owner? other := by
  by_cases h : other = identifier
  · simp [owner?, give, h]
  · simp [owner?, give, List.lookup_cons, h, beq_eq_false_iff_ne.2 h]

theorem given?_give (identifiers : Identifiers) (id identifier other : String) :
    (identifiers.give id identifier).given? other =
      if other = id then some identifier else identifiers.given? other := by
  by_cases h : id = other
  · simp [given?, give, h]
  · simp [given?, give, h, Ne.symm h]

/-- The identifier of an id, given out now unless the id has one. -/
def allocate (identifiers : Identifiers) (id : String) (strict : Bool) :
    Outcome (String × Identifiers) :=
  match identifiers.given? id with
  | some identifier => pure (identifier, identifiers)
  | none =>
    let base := base id
    match identifiers.owner? base with
    | none => pure (base, identifiers.give id base)
    | some owner =>
      if strict then .fail (.sameIdentifier owner id base)
      else do
        let identifier := numbered base (identifiers.freeNumber base)
        .note (.renamed id owner base identifier)
        return (identifier, identifiers.give id identifier)

end Identifiers

end NodeShader
