-- The dialects of JSON Schema and the settings a document is compiled under.
import GuardedCall.Text.Blank
import GuardedCall.Typed.Basic
import GuardedCall.Schema.Fault

namespace GuardedCall

open GuardedCall.Json
open GuardedCall.Typed

/-! ## Dialects -/

/-- A version of JSON Schema. -/
inductive Dialect where
  | draft7
  | draft2019
  | draft2020
deriving DecidableEq, Inhabited

namespace Dialect

def name : Dialect → String
  | .draft7 => "draft-7"
  | .draft2019 => "2019-09"
  | .draft2020 => "2020-12"

def byName : List (String × Dialect) :=
  [("draft-7", .draft7), ("2019-09", .draft2019), ("2020-12", .draft2020)]

/-- The other spellings that are understood. -/
def aliases : List (String × Dialect) :=
  [("draft7", .draft7), ("draft2019-09", .draft2019), ("draft2020-12", .draft2020)]

/-- The dialect that a text names. Blanks around the name and the case of
ASCII letters do not count. -/
def ofText (text : String) : Except SchemaFault Dialect :=
  let key := String.ofList ((Text.trim text.toList).map Char.toLower)
  match (byName ++ aliases).lookup key with
  | some d => .ok d
  | none => .error (.unknownDialect key)

end Dialect

/-- A dialect as JSON: its name. -/
def dialectCodec : Codec Dialect := named "Dialect" Dialect.byName Dialect.name

/-! ## Settings -/

/-- How a document is compiled. -/
structure SchemaConfig where
  /-- The dialect the document is read in. -/
  dialect : Dialect := .draft7
  /-- Object schemas refuse the properties that they do not declare. -/
  strict : Bool := false
deriving DecidableEq, Inhabited

namespace SchemaConfig

/-- The fields that were read so far. -/
structure Slots where
  dialect : Option Dialect := none
  strict : Option Bool := none

/-- One member; one of another name is skipped. -/
def step (origin : Origin) (s : Slots) (key : Key) (w : Written) : Except DecodeFault Slots := do
  if key.name = "dialect" then
    return { s with dialect := ← once s.dialect key (dialectCodec.decode origin w) }
  else if key.name = "strict_mode" then
    return { s with strict := ← once s.strict key (Typed.bool.decode origin w) }
  else do
    skip w
    return s

/-- The item at the next place of an array, where a missing one has its
default. -/
def nextItem {α : Type} (c : Codec α) (default : α) (origin : Origin) (s : Items) :
    Except DecodeFault (α × Items) := do
  match ← s.next with
  | (some w, s) => return (← c.decode origin w, s)
  | (none, s) => return (default, s)

/-- Settings out of an object, or out of an array of their values. What is
missing has its default. -/
def decode (origin : Origin) (w : Written) : Except DecodeFault SchemaConfig :=
  match w with
  | .object _ members ending => do
    let s ← visit (step origin) {} members ending
    return ⟨s.dialect.getD .draft7, s.strict.getD false⟩
  | .array span items ending => do
    let (dialect, s) ← nextItem dialectCodec .draft7 origin ⟨0, items, ending, span.stop⟩
    let (strict, s) ← nextItem Typed.bool false origin s
    s.finish origin
    return ⟨dialect, strict⟩
  | w => .error (mismatch w "struct JsonSchemaConfig")

/-- Settings as an object with all fields. -/
def encode (c : SchemaConfig) : Json :=
  .object [("dialect", .string c.dialect.name), ("strict_mode", .bool c.strict)]

end SchemaConfig

def schemaConfigCodec : Codec SchemaConfig where
  name := "JsonSchemaConfig"
  decode := SchemaConfig.decode
  encode c := .ok c.encode

/-- How a registry loads schemas. -/
structure RegistryConfig where
  /-- The settings under which a document is checked when it is registered. -/
  schema : SchemaConfig := {}
  /-- How many schemas a directory may hold. -/
  maxSchemas : Nat := 256
  /-- How many bytes a schema file may have. -/
  maxFileSize : Nat := 256 * 1024
deriving DecidableEq, Inhabited

end GuardedCall
