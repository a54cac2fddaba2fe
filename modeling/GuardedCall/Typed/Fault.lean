-- Why a JSON value is no value of a type, and why a value of a type has no
-- JSON form.
import GuardedCall.Json.Printer
import GuardedCall.Json.Written

namespace GuardedCall.Typed

open GuardedCall.Json
open GuardedCall.Text (quoted ticked joinWith)

/-- What was found where something else was expected. -/
inductive Found where
  | null
  | bool (b : Bool)
  | number (n : Number)
  | string (s : String)
  | sequence
  | map
  /-- The name of a variant that stands alone. -/
  | unitVariant
deriving DecidableEq

/-- What was found, in words. -/
def Found.text : Found → String
  | .null => "null"
  | .bool b => "boolean " ++ ticked (if b then "true" else "false")
  | .number (.whole n) => "integer " ++ ticked (String.ofList (wholeText n))
  | .number (.double x) => "floating point " ++ ticked (String.ofList (doubleText x))
  | .string s => "string " ++ quoted s
  | .sequence => "sequence"
  | .map => "map"
  | .unitVariant => "unit variant"

def Found.ofScalar : Scalar → Found
  | .null => .null
  | .bool b => .bool b
  | .number n => .number n
  | .string s => .string s

/-- Names to choose from, in words. -/
def choices (names : List String) : String :=
  match names with
  | [a] => ticked a
  | [a, b] => ticked a ++ " or " ++ ticked b
  | names => "one of " ++ joinWith ", " (names.map ticked)

/-- Why a value is refused. -/
inductive DecodeCause where
  /-- The text is no JSON. -/
  | unreadable (cause : ReadCause)
  | wrongType (found : Found) (expected : String)
  | wrongValue (found : Found) (expected : String)
  | wrongLength (length : Nat) (expected : String)
  | missingField (name : String)
  | duplicateField (name : String)
  | unknownField (name : String) (known : List String)
  | unknownVariant (name : String) (known : List String)
  /-- The type refuses the value for a reason of its own. -/
  | refused (reason : String)
deriving DecidableEq

def DecodeCause.message : DecodeCause → String
  | .unreadable c => c.message
  | .wrongType f e => "invalid type: " ++ f.text ++ ", expected " ++ e
  | .wrongValue f e => "invalid value: " ++ f.text ++ ", expected " ++ e
  | .wrongLength n e => "invalid length " ++ toString n ++ ", expected " ++ e
  | .missingField n => "missing field " ++ ticked n
  | .duplicateField n => "duplicate field " ++ ticked n
  | .unknownField n known => "unknown field " ++ ticked n ++ ", expected " ++ choices known
  | .unknownVariant n known => "unknown variant " ++ ticked n ++ ", expected " ++ choices known
  | .refused reason => reason

/-- A cause and, for a fault that has a place, the bytes of the text that
were read before it was seen. -/
structure DecodeFault where
  cause : DecodeCause
  offset : Option Nat
deriving DecidableEq

namespace DecodeFault

def ofRead (f : ReadFault) : DecodeFault := ⟨.unreadable f.cause, some f.offset⟩

/-- The message, without a position. -/
def message (f : DecodeFault) : String := f.cause.message

/-- The message with the position in the text that was read. -/
def messageIn (f : DecodeFault) (text : List Char) : String :=
  match f.offset with
  | some n => f.cause.message ++ (position text n).text
  | none => f.cause.message

end DecodeFault

/-- Why a value has no JSON form. -/
inductive EncodeFault where
  /-- A map whose keys are no strings. -/
  | keyNotString
  /-- The type refuses the value for a reason of its own. -/
  | refused (reason : String)
deriving DecidableEq

def EncodeFault.message : EncodeFault → String
  | .keyNotString => "key must be a string"
  | .refused reason => reason

end GuardedCall.Typed
