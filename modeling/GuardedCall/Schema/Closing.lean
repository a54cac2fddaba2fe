-- Closing a document: every object schema in it that does not say which
-- further properties it allows is made to allow none.
import GuardedCall.Json.Value

namespace GuardedCall.Schema

open GuardedCall

/-- The keywords that make a schema without a type an object schema. -/
def objectKeywords : List String :=
  ["properties", "patternProperties", "additionalProperties", "unevaluatedProperties", "required",
    "dependentRequired", "dependentSchemas", "propertyNames"]

/-- The keywords whose members are schemas by name. -/
def schemaMapKeywords : List String :=
  ["properties", "patternProperties", "dependentSchemas", "$defs", "definitions"]

/-- The keywords whose value is a schema or a list of schemas. -/
def schemaKeywords : List String :=
  ["propertyNames", "additionalProperties", "unevaluatedProperties", "items", "contains",
    "additionalItems", "unevaluatedItems", "not", "if", "then", "else", "prefixItems", "allOf",
    "anyOf", "oneOf"]

def isObjectName : Json → Bool
  | .string s => s == "object"
  | _ => false

/-- The members of a schema that describes objects: its type says so, or it
has no such type and a keyword for objects. -/
def describesObjects (members : Table Json) : Bool :=
  match members.find? "type" with
  | some (.string s) => s == "object"
  | some (.array types) => types.any isObjectName
  | _ => objectKeywords.any members.has

/-- The members of an object schema that says nothing of further properties. -/
def isOpen (members : Table Json) : Bool :=
  describesObjects members && !members.has "additionalProperties"

mutual

/-- The document with every schema that it reaches closed. -/
def close : Json → Json
  | .object members =>
    let inner := closeInside members
    .object (if isOpen members then Table.insert inner "additionalProperties" (.bool false) else inner)
  | .array items => .array (closeItems items)
  | v => v

/-- The items, closed one by one. -/
def closeItems : List Json → List Json
  | [] => []
  | v :: rest => close v :: closeItems rest

/-- The members of a schema, with the schemas below its keywords closed. -/
def closeInside : List (String × Json) → List (String × Json)
  | [] => []
  | (key, v) :: rest =>
    let inner :=
      if key ∈ schemaMapKeywords then
        match v with
        | .object schemas => .object (closeNamed schemas)
        | v => v
      else if key ∈ schemaKeywords then close v
      else v
    (key, inner) :: closeInside rest

/-- Schemas by name, closed one by one. -/
def closeNamed : List (String × Json) → List (String × Json)
  | [] => []
  | (name, v) :: rest => (name, close v) :: closeNamed rest

end

end GuardedCall.Schema
