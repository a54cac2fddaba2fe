-- Adapters: what a library of schemas has to offer, so that methods can
-- check their arguments and results with it.
import GuardedCall.Adapter.Kind

namespace GuardedCall

open GuardedCall.Typed

/-- What is wrong where an adapter cannot do its work. -/
inductive AdapterCause where
  /-- The adapter cannot evaluate the schema. -/
  | malformedSchema (message : String)
  /-- A value that was accepted does not decode. -/
  | projection (message : String)
deriving DecidableEq

/-- A fault of an adapter. It is a mistake of the program, never one of the
data. -/
structure AdapterFault where
  /-- The name of the adapter. -/
  adapter : String
  cause : AdapterCause
deriving DecidableEq

namespace AdapterFault

/-- The name of the kind of fault. -/
def label (f : AdapterFault) : String :=
  match f.cause with
  | .malformedSchema _ => "MalformedSchema"
  | .projection _ => "Projection"

def message (f : AdapterFault) : String :=
  match f.cause with
  | .malformedSchema m => f.adapter ++ " adapter: malformed schema: " ++ m
  | .projection m => f.adapter ++ " adapter: validated value does not fit projected type: " ++ m

/-- Every such fault is of one kind. -/
def kind (_ : AdapterFault) : FailureKind := .adapterFault

end AdapterFault

/-- An adapter. `S α` are the schemas whose values are read as values of `α`. -/
structure Adapter (S : Type → Type) where
  /-- The name that reports and logs use. -/
  name : String
  /-- Whether a value is as the schema asks for. A value that is not is no
  fault; a schema that cannot be evaluated is one. -/
  validate : {α : Type} → S α → Json → Except AdapterFault Bool
  /-- Why a value was not accepted, where the adapter can tell. -/
  diagnose : {α : Type} → S α → Json → Option String
  /-- How the values of the schema are read and written. -/
  codec : {α : Type} → S α → Codec α

namespace Adapter

variable {S : Type → Type} {α : Type}

/-- The typed value of a JSON value that the schema accepted. -/
def decode (a : Adapter S) (schema : S α) (v : Json) : Except AdapterFault α :=
  ((a.codec schema).decodeJson v).mapError fun f => ⟨a.name, .projection f.message⟩

/-- The JSON value that the schema looks at. -/
def encode (a : Adapter S) (schema : S α) (x : α) : Except EncodeFault Json :=
  (a.codec schema).encode x

end Adapter

end GuardedCall
