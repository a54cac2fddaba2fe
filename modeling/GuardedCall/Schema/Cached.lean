-- Documents that remember how they were compiled. The first settings that a
-- document is used under are the ones it remembers; under other settings it
-- is compiled every time, which is logged.
import GuardedCall.Adapter.ByDocument
import GuardedCall.Adapter.Inspection
import GuardedCall.Attempt

namespace GuardedCall

open GuardedCall.Typed

/-- Settings with what a document was compiled to under them. -/
structure Compiled where
  config : SchemaConfig
  result : Except AdapterFault Schema.Validator

/-- A document with what is remembered of it. -/
structure CachedSchema where
  document : Json
  cell : Option Compiled

namespace CachedSchema

variable {ε : Type}

/-- A document that was not used yet. -/
def ofDocument (document : Json) : CachedSchema := ⟨document, none⟩

/-- What is logged when a document is compiled once more. -/
def outsideEvent (config : SchemaConfig) : LogEvent :=
  ⟨.debug, "typeadapt_schema::json_schema", "compiling schema outside cache",
    [("dialect", config.dialect.name)]⟩

/-- What is remembered after a use under some settings. -/
def filled (s : CachedSchema) (config : SchemaConfig) : Compiled :=
  match s.cell with
  | some c => c
  | none => ⟨config, compileDocument config s.document⟩

def validator (config : SchemaConfig) : Attempt CachedSchema AdapterFault Schema.Validator :=
  fun s =>
    let c := s.filled config
    let after := { s with cell := some c }
    if c.config = config then ⟨c.result, after, []⟩
    else ⟨compileDocument config s.document, after, [outsideEvent config]⟩

/-- Compiles the document, so that what is wrong with it is seen at once. -/
def prepare (config : SchemaConfig) : Attempt CachedSchema AdapterFault Unit := do
  let _ ← validator config
  return ()

/-- Whether a value is as the document asks for. -/
def validate (config : SchemaConfig) (v : Json) : Attempt CachedSchema AdapterFault Bool := do
  return (← validator config).accepts v

/-- Why a value is not as the document asks for. -/
def diagnose (config : SchemaConfig) (v : Json) : Attempt CachedSchema ε (Option String) := do
  match ← (validator config).attempt with
  | .ok c => return c.explain v
  | .error _ => return none

/-- Inspects a value that is read as one of a type. -/
def inspect {α : Type} (config : SchemaConfig) (codec : Codec α) (v : Json) :
    Attempt CachedSchema ε Inspection := do
  let accepted ← (validate config v).attempt
  let reason ← diagnose config v
  let a := byDocument config
  let s ← .current
  let schema : DocumentSchema α := ⟨s.document, codec⟩
  return ⟨accepted, reason, (a.decode schema v).map (a.encode schema)⟩

end CachedSchema

end GuardedCall
