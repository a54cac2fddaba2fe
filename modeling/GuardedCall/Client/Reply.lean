-- Replies, as they go from a server to a client: the result of a call, or
-- the kind and the message of its failure.
import GuardedCall.Client.Fault
import GuardedCall.Json.Bytes
import GuardedCall.Typed.Basic

namespace GuardedCall

open GuardedCall.Json
open GuardedCall.Typed

/-- The answer to a call. -/
inductive Reply where
  | ok (value : Json)
  | error (kind : FailureKind) (message : String)

namespace Reply

/-- What a client makes of a reply. -/
def result : Reply → Except ClientFault Json
  | .ok v => .ok v
  | .error k m => .error (.remote k m)

def toJson : Reply → Json
  | .ok v => .object [("ok", v)]
  | .error k m =>
    .object [("error", .object [("kind", .string k.name), ("message", .string m)])]

/-- The fields of a failure that were read so far. -/
structure Slots where
  kind : Option FailureKind := none
  message : Option String := none

/-- One member of a failure; one of another name is skipped. -/
def step (origin : Origin) (s : Slots) (key : Key) (w : Written) : Except DecodeFault Slots := do
  if key.name = "kind" then
    return { s with kind := ← once s.kind key (failureKindCodec.decode origin w) }
  else if key.name = "message" then
    return { s with message := ← once s.message key (Typed.string.decode origin w) }
  else do
    skip w
    return s

/-- A failure out of an object, or out of an array of its two parts. -/
def decodeFailure (origin : Origin) (w : Written) : Except DecodeFault Reply :=
  match w with
  | .object span members ending => do
    let s ← visit (step origin) {} members ending
    return .error (← required s.kind "kind" span.stop) (← required s.message "message" span.stop)
  | .array span items ending => do
    let expected := "struct RemoteError with 2 elements"
    let (kind, s) ← Items.take ⟨0, items, ending, span.stop⟩ expected
    let kind ← failureKindCodec.decode origin kind
    let (message, s) ← s.take expected
    let message ← Typed.string.decode origin message
    s.finish origin
    return .error kind message
  | w => .error (mismatch w "struct RemoteError")

/-- A reply: an object with the result or with the failure. -/
def decode (origin : Origin) (w : Written) : Except DecodeFault Reply := do
  let v ← Variant.read origin ["ok", "error"] w
  let content ← v.payload "newtype variant"
  let r ← if v.name = "ok" then (Typed.json.decode origin content).map Reply.ok
    else decodeFailure origin content
  Variant.finish origin w
  return r

end Reply

def replyCodec : Codec Reply where
  name := "Reply"
  decode := Reply.decode
  encode r := .ok r.toJson

namespace Reply

def bytes (r : Reply) : List UInt8 := Json.bytes r.toJson

def ofText (text : List Char) : Except ClientFault Reply :=
  (replyCodec.readText text).mapError fun f => .json (f.messageIn text)

def ofBytes (bytes : List UInt8) : Except ClientFault Reply :=
  match Text.Utf8.decode bytes with
  | (text, true) => ofText text
  | (text, false) => .error (.json ((strayFault text .expectedValue).message text))

end Reply

end GuardedCall
