-- The adapter whose schemas are JSON Schema documents, each with the type
-- that its values are read as.
import GuardedCall.Adapter.Basic
import GuardedCall.Schema.Validator
import GuardedCall.Json.Shown

namespace GuardedCall

open GuardedCall.Typed

/-- The name under which this adapter reports. -/
def documentAdapterName : String := "json-schema"

/-- A document with the type that its values are read as. -/
structure DocumentSchema (α : Type) where
  document : Json
  codec : Codec α

namespace DocumentSchema

variable {α β : Type}

def retag (s : DocumentSchema α) (codec : Codec β) : DocumentSchema β := ⟨s.document, codec⟩

/-- How a document is shown as a schema. -/
def text (s : DocumentSchema α) : String :=
  "JsonSchema \x7b type: " ++ Text.quoted s.codec.name ++ ", document: " ++ s.document.shown ++
    " \x7d"

end DocumentSchema

/-- The document compiled under some settings, or the fault of the adapter. -/
def compileDocument (config : SchemaConfig) (document : Json) :
    Except AdapterFault Schema.Validator :=
  (Schema.compile config document).mapError fun f =>
    ⟨documentAdapterName, .malformedSchema f.message⟩

/-- The adapter of documents under some settings. -/
def byDocument (config : SchemaConfig) : Adapter DocumentSchema where
  name := documentAdapterName
  validate s v := (compileDocument config s.document).map (·.accepts v)
  diagnose s v :=
    match compileDocument config s.document with
    | .ok c => c.explain v
    | .error _ => none
  codec s := s.codec

end GuardedCall
