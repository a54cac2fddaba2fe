-- The schemas of schemas: for each dialect the document that says what a
-- schema of that dialect looks like. Members are listed in order of their keys.
--
-- Each is one document that refers to itself as a whole, where the standard has
-- a document for each group of keywords. Left out are the formats of references
-- and of names (`uri`, `uri-reference`), the patterns of `$id` and `$anchor`, and
-- the keywords that are not listed, among them `$dynamicRef`, `$dynamicAnchor`,
-- `$recursiveRef`, `$recursiveAnchor` and `$vocabulary`: any value will do for
-- those. The content keywords have a shape but no meaning.
import GuardedCall.Json.Value
import GuardedCall.Schema.Config

namespace GuardedCall.Schema

open GuardedCall

namespace MetaSchema

/-! ## Parts of a schema -/

/-- A type by name. -/
def typed (name : String) : Json := .object [("type", .string name)]

def anything : Json := .bool true
def text : Json := typed "string"
def flag : Json := typed "boolean"
def number : Json := typed "number"
def list : Json := typed "array"

/-- A whole number that is not negative. -/
def count : Json := .object [("minimum", Json.whole 0), ("type", .string "integer")]

/-- A number above zero. -/
def positive : Json := .object [("exclusiveMinimum", Json.whole 0), ("type", .string "number")]

/-- The schema itself. -/
def schema : Json := .object [("$ref", .string "#")]

/-- Schemas by name. -/
def schemaMap : Json := .object [("additionalProperties", schema), ("type", .string "object")]

/-- A list of at least one schema. -/
def schemaList : Json :=
  .object [("items", schema), ("minItems", Json.whole 1), ("type", .string "array")]

/-- A list of texts, each there once. -/
def textList : Json :=
  .object [("items", text), ("type", .string "array"), ("uniqueItems", .bool true)]

/-- One of some schemas. -/
def either (schemas : List Json) : Json := .object [("anyOf", .array schemas)]

/-- The name of a type. -/
def typeName : Json :=
  .object [("enum", .array
    [.string "array", .string "boolean", .string "integer", .string "null", .string "number",
      .string "object", .string "string"])]

/-- The name of a type, or a list of names, each there once. -/
def types : Json :=
  either [typeName,
    .object [("items", typeName), ("minItems", Json.whole 1), ("type", .string "array"),
      ("uniqueItems", .bool true)]]

/-- Names, each with a schema or with other names. -/
def dependencies : Json :=
  .object [("additionalProperties", either [schema, textList]), ("type", .string "object")]

/-- Names, each with other names. -/
def dependentNames : Json :=
  .object [("additionalProperties", textList), ("type", .string "object")]

/-- A text that writes a pattern. -/
def pattern : Json := .object [("format", .string "regex"), ("type", .string "string")]

/-- Schemas by pattern. -/
def patternMap : Json :=
  .object [("additionalProperties", schema),
    ("propertyNames", .object [("format", .string "regex")]), ("type", .string "object")]

/-- The types of a schema: an object, or one of the two truth values. -/
def schemaTypes : String × Json := ("type", .array [.string "object", .string "boolean"])

/-! ## The oldest dialect -/

/-- The keywords of the oldest dialect. -/
def draft7Keywords : List (String × Json) :=
  [("$comment", text), ("$id", text), ("$ref", text), ("$schema", text),
    ("additionalItems", schema), ("additionalProperties", schema), ("allOf", schemaList),
    ("anyOf", schemaList), ("const", anything), ("contains", schema),
    ("contentEncoding", text), ("contentMediaType", text), ("default", anything),
    ("definitions", schemaMap), ("dependencies", dependencies), ("description", text),
    ("else", schema), ("enum", list), ("examples", list), ("exclusiveMaximum", number),
    ("exclusiveMinimum", number), ("format", text), ("if", schema),
    ("items", either [schema, schemaList]), ("maxItems", count), ("maxLength", count),
    ("maxProperties", count), ("maximum", number), ("minItems", count), ("minLength", count),
    ("minProperties", count), ("minimum", number), ("multipleOf", positive), ("not", schema),
    ("oneOf", schemaList), ("pattern", pattern), ("patternProperties", patternMap),
    ("properties", schemaMap), ("propertyNames", schema), ("readOnly", flag),
    ("required", textList), ("then", schema), ("title", text), ("type", types),
    ("uniqueItems", flag)]

def draft7 : Json := .object [("properties", .object draft7Keywords), schemaTypes]

/-! ## The later dialects -/

/-- A group of keywords. -/
def vocabulary (keywords : List (String × Json)) : Json :=
  .object [("properties", .object keywords)]

/-- The keywords that name schemas and tie documents together. -/
def core : Json :=
  vocabulary [("$anchor", text), ("$comment", text), ("$defs", schemaMap), ("$id", text),
    ("$ref", text), ("$schema", text)]

/-- The keywords that apply schemas, as they are in 2019. -/
def applicator2019 : Json :=
  vocabulary [("additionalItems", schema), ("additionalProperties", schema),
    ("allOf", schemaList), ("anyOf", schemaList), ("contains", schema),
    ("dependentSchemas", schemaMap), ("else", schema), ("if", schema),
    ("items", either [schema, schemaList]), ("not", schema), ("oneOf", schemaList),
    ("patternProperties", patternMap), ("properties", schemaMap), ("propertyNames", schema),
    ("then", schema), ("unevaluatedItems", schema), ("unevaluatedProperties", schema)]

/-- The keywords that apply schemas, as they are in 2020. -/
def applicator2020 : Json :=
  vocabulary [("additionalProperties", schema), ("allOf", schemaList), ("anyOf", schemaList),
    ("contains", schema), ("dependentSchemas", schemaMap), ("else", schema), ("if", schema),
    ("items", schema), ("not", schema), ("oneOf", schemaList),
    ("patternProperties", patternMap), ("prefixItems", schemaList), ("properties", schemaMap),
    ("propertyNames", schema), ("then", schema)]

/-- The keywords for what no other schema looked at. -/
def unevaluated : Json :=
  vocabulary [("unevaluatedItems", schema), ("unevaluatedProperties", schema)]

/-- The keywords that look at a value by itself. -/
def validation : Json :=
  vocabulary [("const", anything), ("dependentRequired", dependentNames), ("enum", list),
    ("exclusiveMaximum", number), ("exclusiveMinimum", number), ("maxContains", count),
    ("maxItems", count), ("maxLength", count), ("maxProperties", count), ("maximum", number),
    ("minContains", count), ("minItems", count), ("minLength", count), ("minProperties", count),
    ("minimum", number), ("multipleOf", positive), ("pattern", pattern), ("required", textList),
    ("type", types), ("uniqueItems", flag)]

/-- The keywords for readers. -/
def annotation : Json :=
  vocabulary [("default", anything), ("deprecated", flag), ("description", text),
    ("examples", list), ("readOnly", flag), ("title", text), ("writeOnly", flag)]

def format : Json := vocabulary [("format", text)]

def content : Json :=
  vocabulary [("contentEncoding", text), ("contentMediaType", text), ("contentSchema", schema)]

/-- The keywords that were given up. -/
def retired : List (String × Json) :=
  [("definitions", schemaMap), ("dependencies", dependencies)]

def draft2019 : Json :=
  .object [("allOf", .array [core, applicator2019, validation, annotation, format, content]),
    ("properties", .object retired), schemaTypes]

def draft2020 : Json :=
  .object [
    ("allOf", .array [core, applicator2020, unevaluated, validation, annotation, format, content]),
    ("properties", .object retired), schemaTypes]

end MetaSchema

/-- The schema of the schemas of a dialect. -/
def metaSchema : Dialect → Json
  | .draft7 => MetaSchema.draft7
  | .draft2019 => MetaSchema.draft2019
  | .draft2020 => MetaSchema.draft2020

end GuardedCall.Schema
