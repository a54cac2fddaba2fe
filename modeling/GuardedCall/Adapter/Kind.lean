-- The kinds of failure, shared by all layers and sent over wires by name.
import GuardedCall.Typed.Codec

namespace GuardedCall

open GuardedCall.Typed

/-- What kind of failure it is. -/
inductive FailureKind where
  /-- The argument is not as the input schema asks for. -/
  | invalidInput
  /-- The result is not as the output schema asks for. -/
  | invalidOutput
  /-- Two entries of a router have one name. -/
  | duplicateName
  /-- The adapter cannot evaluate a schema or decode a value. -/
  | adapterFault
  /-- The implementation failed. -/
  | handler
  /-- The name of an entry cannot be part of a path. -/
  | invalidName
  /-- No procedure is at the path. -/
  | notFound
  /-- The transport could not carry the call. -/
  | transport
deriving DecidableEq

namespace FailureKind

def name : FailureKind → String
  | .invalidInput => "invalid_input"
  | .invalidOutput => "invalid_output"
  | .duplicateName => "duplicate_name"
  | .adapterFault => "adapter_fault"
  | .handler => "handler"
  | .invalidName => "invalid_name"
  | .notFound => "not_found"
  | .transport => "transport"

def byName : List (String × FailureKind) :=
  [("invalid_input", .invalidInput), ("invalid_output", .invalidOutput),
    ("duplicate_name", .duplicateName), ("adapter_fault", .adapterFault), ("handler", .handler),
    ("invalid_name", .invalidName), ("not_found", .notFound), ("transport", .transport)]

end FailureKind

/-- A kind of failure as JSON: its name. -/
def failureKindCodec : Codec FailureKind := named "ErrorKind" FailureKind.byName FailureKind.name

end GuardedCall
