import NodeShader.Json.Token

/-!
JSON documents as written: members in order, repeated keys kept, and no value yet for a string or
numeral that denotes nothing. Such a document can be skipped, but not kept.
-/

namespace NodeShader

inductive Document where
  | null
  | bool (value : Bool)
  | number (value : Option Number)
  | string (value : Option String)
  | array (items : List Document)
  | object (members : List (Option String × Document))

namespace Document

/-- An array or object whose end is still to come; what it holds so far is newest first. -/
inductive Container where
  | array (items : List Document)
  | object (members : List (Option String × Document))
  | member (members : List (Option String × Document)) (key : Option String)

/-- What may come next. -/
inductive Expectation where
  | value
  | firstItem
  | firstKey
  | key
  | colon
  | separator

/-- A document that is being read: the containers around the current place, innermost first. -/
inductive Reading where
  | within (containers : List Container) (next : Expectation)
  | complete (document : Document)

namespace Reading

/-- Takes a value that has been read to its end. -/
def take (value : Document) : List Container → Option Reading
  | [] => some (.complete value)
  | .array items :: outer => some (.within (.array (value :: items) :: outer) .separator)
  | .member members key :: outer =>
    some (.within (.object ((key, value) :: members) :: outer) .separator)
  | .object _ :: _ => none

def startValue (containers : List Container) : Token → Option Reading
  | .null => take .null containers
  | .bool value => take (.bool value) containers
  | .number value => take (.number value) containers
  | .string value => take (.string value) containers
  | .openArray => some (.within (.array [] :: containers) .firstItem)
  | .openObject => some (.within (.object [] :: containers) .firstKey)
  | _ => none

def close : List Container → Token → Option Reading
  | .array items :: outer, .closeArray => take (.array items.reverse) outer
  | .object members :: outer, .closeObject => take (.object members.reverse) outer
  | _, _ => none

/-- Takes the key of a member. -/
def name : List Container → Token → Option Reading
  | .object members :: outer, .string key => some (.within (.member members key :: outer) .colon)
  | _, _ => none

/-- Reads one token. -/
def step : Reading → Token → Option Reading
  | .complete _, _ => none
  | .within containers .value, token => startValue containers token
  | .within containers .firstItem, token =>
    match token with
    | .closeArray => close containers token
    | _ => startValue containers token
  | .within containers .firstKey, token =>
    match token with
    | .closeObject => close containers token
    | _ => name containers token
  | .within containers .key, token => name containers token
  | .within containers .colon, token =>
    match token with
    | .colon => some (.within containers .value)
    | _ => none
  | .within containers .separator, token =>
    match token, containers with
    | .comma, .array _ :: _ => some (.within containers .value)
    | .comma, .object _ :: _ => some (.within containers .key)
    | _, _ => close containers token

end Reading

/-- The document that a text holds, with nothing but space around it. -/
def read? (text : String) : Option Document := do
  let tokens ← Token.all? text.toList
  match ← tokens.foldlM Reading.step (.within [] .value) with
  | .complete document => some document
  | .within _ _ => none

end Document

end NodeShader
