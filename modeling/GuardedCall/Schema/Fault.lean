-- What can go wrong while schemas are loaded, named and compiled.
import GuardedCall.Text.Quoted

namespace GuardedCall

/-- Why a schema is not taken. -/
inductive SchemaFault where
  /-- A file or a directory cannot be loaded. -/
  | loadFailed (reason : String)
  /-- The document is no schema. -/
  | compileFailed (name message : String)
  /-- The text is no JSON. -/
  | invalidJson (message : String)
  /-- The name is taken. -/
  | duplicateSchema (name : String)
  /-- The name is none that a schema may have. -/
  | invalidName (name : String)
  /-- No schema has the name. -/
  | noSchema (name : String)
  /-- No dialect has the name. -/
  | unknownDialect (name : String)
deriving DecidableEq

namespace SchemaFault

/-- The name of the kind of fault. -/
def label : SchemaFault → String
  | .loadFailed _ => "LoadFailed"
  | .compileFailed _ _ => "CompileFailed"
  | .invalidJson _ => "InvalidJson"
  | .duplicateSchema _ => "DuplicateSchema"
  | .invalidName _ => "InvalidName"
  | .noSchema _ => "NoSchema"
  | .unknownDialect _ => "UnknownDialect"

def message : SchemaFault → String
  | .loadFailed reason => "failed to load schema: " ++ reason
  | .compileFailed name m => "failed to compile schema " ++ name ++ ": " ++ m
  | .invalidJson m => "schema is not valid JSON: " ++ m
  | .duplicateSchema name => "schema " ++ name ++ " is already registered"
  | .invalidName name => "invalid schema name: " ++ Text.quoted name
  | .noSchema name => "no schema registered as " ++ name
  | .unknownDialect name => "unknown JSON Schema dialect: " ++ name

end SchemaFault

end GuardedCall
