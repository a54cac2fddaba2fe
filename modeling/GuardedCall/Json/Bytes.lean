-- JSON texts as bytes, as they come over a wire or out of a file.
import GuardedCall.Text.Utf8
import GuardedCall.Json.Reader
import GuardedCall.Json.Printer

namespace GuardedCall.Json

/-- The bytes of the text of a value. -/
def bytes (v : Json) : List UInt8 := Text.Utf8.encode (chars v)

/-- The cause that a byte which is no character gives, where the end of the
text would have given `cause`. -/
def ReadCause.atStray : ReadCause → ReadCause
  | .endInValue => .expectedValue
  | .endInList => .expectedListEnd
  | .endInObject => .expectedObjectEnd
  | .endInString => .badCodePoint
  | cause => cause

/-- What is written before a byte that is no character, with the fault that
the byte gives. -/
def strayFault (text : List Char) (cause : ReadCause) : ReadFault :=
  ⟨cause, byteCount text + 1⟩

/-- A text as it is written in bytes, with the characters of the bytes. A
byte that is no character is a fault where it stands. -/
def readBytesWith {α : Type} (readText : List Char → Except ReadFault α) (bytes : List UInt8) :
    Except String α :=
  match Text.Utf8.decode bytes with
  | (text, true) => (readText text).mapError (·.message text)
  | (text, false) =>
    match readText text with
    | .ok _ => .error ((strayFault text .trailingText).message text)
    | .error f =>
      if f.cause.atStray = f.cause then .error (f.message text)
      else .error ((strayFault text f.cause.atStray).message text)

/-- The value of the bytes of a text, or the message of the fault. -/
def readBytes (bytes : List UInt8) : Except String Json := readBytesWith read bytes

end GuardedCall.Json
