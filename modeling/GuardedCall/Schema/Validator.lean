-- Compiling a document: it has to be a schema of its dialect, and what it
-- refers to has to be there. A compiled document accepts a value, or explains
-- why it does not.
import GuardedCall.Schema.Closing
import GuardedCall.Schema.MetaSchema
import GuardedCall.Schema.Reference

namespace GuardedCall.Schema

open GuardedCall

/-- Why a document cannot be compiled. -/
inductive CompileFault where
  /-- The document, or a part of it, is no schema. -/
  | notASchema (violation : Violation)
  /-- A reference leads nowhere. -/
  | dangling (pointer : String)

def CompileFault.message : CompileFault → String
  | .notASchema v => v.message
  | .dangling pointer => "Pointer " ++ Violation.marked pointer ++ " does not exist"

/-! ## What a schema reaches -/

/-- How the value of a keyword holds schemas. -/
inductive Holding where
  /-- A schema, or a list of schemas. -/
  | schemas
  | schemasByName
  | schemasByPattern
  | pattern
  | reference
  | nothing
deriving DecidableEq

/-- The keywords whose value is a schema or a list of schemas, in every dialect. -/
def commonSchemaKeywords : List String :=
  ["additionalProperties", "allOf", "anyOf", "contains", "else", "if", "items", "not", "oneOf",
    "propertyNames", "then"]

/-- The keywords of one dialect whose value is a schema or a list of schemas. -/
def ownSchemaKeywords : Dialect → List String
  | .draft7 => ["additionalItems"]
  | .draft2019 => ["additionalItems", "unevaluatedItems", "unevaluatedProperties"]
  | .draft2020 => ["prefixItems", "unevaluatedItems", "unevaluatedProperties"]

/-- How the value of a keyword holds schemas that are used. -/
def holding (dialect : Dialect) (key : String) : Holding :=
  if key ∈ commonSchemaKeywords ∨ key ∈ ownSchemaKeywords dialect then .schemas
  else if key = "properties" ∨ key = "dependencies" then .schemasByName
  else if key = "dependentSchemas" ∧ dialect ≠ .draft7 then .schemasByName
  else if key = "patternProperties" then .schemasByPattern
  else if key = "pattern" then .pattern
  else if key = "$ref" then .reference
  else .nothing

/-- The references that were followed, or the first fault. -/
abbrev Survey := Except CompileFault (List String)

/-- A text that has to write a pattern; `shown` stands for it in the fault. -/
def surveyPattern (pattern : String) (shown : Json) : Except CompileFault Unit :=
  match Pattern.ofText? pattern with
  | some _ => .ok ()
  | none => .error (.notASchema (.badFormat shown "regex"))

/-- Names that have to write patterns; the schema of a name stands for it. -/
def surveyPatterns (schemas : List (String × Json)) : Except CompileFault Unit :=
  schemas.forM fun s => surveyPattern s.1 s.2

/-- A list, where a schema may stand as well. -/
def isList : Json → Bool
  | .array _ => true
  | _ => false

/-- The reference of a schema beside which nothing counts. -/
def soleReference? (dialect : Dialect) (members : List (String × Json)) : Option String :=
  match dialect, Table.find? members "$ref" with
  | .draft7, some (.string r) => some r
  | _, _ => none

mutual

/-- Goes through the schemas that a schema, or a list of schemas, reaches. -/
def survey (dialect : Dialect) (follow : String → List String → Survey) :
    Json → List String → Survey
  | .object members, seen =>
    match soleReference? dialect members with
    | some r => follow r seen
    | none => surveyMembers dialect follow members seen
  | .array items, seen => surveyItems dialect follow items seen
  | .bool _, seen => .ok seen
  | v, _ => .error (.notASchema (.wrongType v ["boolean", "object"]))

/-- Goes through the keywords of a schema. -/
def surveyMembers (dialect : Dialect) (follow : String → List String → Survey) :
    List (String × Json) → List String → Survey
  | [], seen => .ok seen
  | (key, v) :: rest, seen => do
    let seen ← match holding dialect key, v with
      | .schemas, v => survey dialect follow v seen
      | .schemasByName, .object schemas => surveyNamed dialect follow schemas seen
      | .schemasByPattern, .object schemas => do
        surveyPatterns schemas
        surveyNamed dialect follow schemas seen
      | .pattern, .string s => do
        surveyPattern s (.string s)
        .ok seen
      | .reference, .string r => follow r seen
      | _, _ => .ok seen
    surveyMembers dialect follow rest seen

/-- Goes through the schemas of a list. -/
def surveyItems (dialect : Dialect) (follow : String → List String → Survey) :
    List Json → List String → Survey
  | [], seen => .ok seen
  | v :: rest, seen => do
    let seen ← survey dialect follow v seen
    surveyItems dialect follow rest seen

/-- Goes through schemas by name. A list of names in the place of a schema
holds none. -/
def surveyNamed (dialect : Dialect) (follow : String → List String → Survey) :
    List (String × Json) → List String → Survey
  | [], seen => .ok seen
  | (_, v) :: rest, seen => do
    let seen ← if isList v then .ok seen else survey dialect follow v seen
    surveyNamed dialect follow rest seen

end

/-- Follows a reference that was not followed before. `fuel` is at least the
number of references that are still to be followed. -/
def follow (dialect : Dialect) (root : Json) : Nat → String → List String → Survey
  | 0, _, seen => .ok seen
  | fuel + 1, reference, seen =>
    if reference ∈ seen then .ok seen
    else
      match target? root reference with
      | none => .error (.dangling (String.ofList (pointerOf reference)))
      | some (.array items) =>
        .error (.notASchema (.wrongType (.array items) ["boolean", "object"]))
      | some schema => survey dialect (follow dialect root fuel) schema (reference :: seen)

/-! ## Compiled documents -/

/-- A compiled document. -/
structure Validator where
  dialect : Dialect
  document : Json

namespace Validator

/-- What a value has against the document, in order. -/
def violations (c : Validator) (v : Json) : List Violation :=
  (judge c.dialect c.document v).violations

/-- The value is as the document asks for. -/
def accepts (c : Validator) (v : Json) : Bool := (c.violations v).isEmpty

def maxReported : Nat := 4

/-- Why the value is not accepted, if it is not. -/
def explain (c : Validator) (v : Json) : Option String :=
  match c.violations v with
  | [] => none
  | found => some (Text.joinWith "; " ((found.take maxReported).map Violation.message))

end Validator

/-- The first thing that a document has against the schema of schemas. -/
def shapeFault? (dialect : Dialect) (document : Json) : Option Violation :=
  (judge dialect (metaSchema dialect) document).violations.head?

/-- The document that the settings ask for. -/
def prepared (config : SchemaConfig) (document : Json) : Json :=
  if config.strict then close document else document

/-- Compiles a document under some settings. -/
def compile (config : SchemaConfig) (document : Json) : Except CompileFault Validator :=
  let document := prepared config document
  match shapeFault? config.dialect document with
  | some v => .error (.notASchema v)
  | none => do
    let _ ← survey config.dialect
      (follow config.dialect document (countReferences document + 1)) document []
    return ⟨config.dialect, document⟩

end GuardedCall.Schema
