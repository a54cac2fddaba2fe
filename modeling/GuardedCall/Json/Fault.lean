-- What can be wrong with a JSON text, and where.
import GuardedCall.Text.Quoted

namespace GuardedCall.Json

/-- Why a text is no JSON, or no JSON that can be kept. -/
inductive ReadCause where
  /-- The text ends where a value, a digit, a letter or a key must follow. -/
  | endInValue
  /-- The text ends inside an array. -/
  | endInList
  /-- The text ends inside an object. -/
  | endInObject
  /-- The text ends inside a string. -/
  | endInString
  /-- No value starts here. -/
  | expectedValue
  /-- A letter that does not belong to `true`, `false` or `null`. -/
  | expectedWord
  | expectedColon
  | expectedListEnd
  | expectedObjectEnd
  | keyNotString
  | trailingComma
  /-- Something other than blanks after the value. -/
  | trailingText
  | badNumber
  /-- A number too large for a double. -/
  | numberTooLarge
  | badEscape
  /-- The first half of a pair of escapes without the second. -/
  | unfinishedPair
  /-- Half a pair of escapes that no other half can complete. -/
  | loneHalf
  | controlCharacter
  /-- Arrays and objects nest too deep. -/
  | tooDeep
  /-- Bytes of a string that are not UTF-8. -/
  | badCodePoint
deriving DecidableEq

open GuardedCall.Text in
def ReadCause.message : ReadCause → String
  | .endInValue => "EOF while parsing a value"
  | .endInList => "EOF while parsing a list"
  | .endInObject => "EOF while parsing an object"
  | .endInString => "EOF while parsing a string"
  | .expectedValue => "expected value"
  | .expectedWord => "expected ident"
  | .expectedColon => "expected " ++ ticked ":"
  | .expectedListEnd => "expected " ++ ticked "," ++ " or " ++ ticked "]"
  | .expectedObjectEnd => "expected " ++ ticked "," ++ " or " ++ ticked "\x7d"
  | .keyNotString => "key must be a string"
  | .trailingComma => "trailing comma"
  | .trailingText => "trailing characters"
  | .badNumber => "invalid number"
  | .numberTooLarge => "number out of range"
  | .badEscape => "invalid escape"
  | .unfinishedPair => "unexpected end of hex escape"
  | .loneHalf => "lone leading surrogate in hex escape"
  | .controlCharacter => "control character (\\u0000-\\u001F) found while parsing a string"
  | .tooDeep => "recursion limit exceeded"
  | .badCodePoint => "invalid unicode code point"

/-- A cause and the number of bytes of the text that were read before the
fault was seen. -/
structure ReadFault where
  cause : ReadCause
  offset : Nat
deriving DecidableEq

/-! ## Positions -/

/-- A line, counted from one, and the bytes before the place in that line. -/
structure Position where
  line : Nat
  column : Nat
deriving DecidableEq

/-- The position after `offset` bytes of a text, where `seen` bytes and
`line` lines came before and the current line began after `start` bytes. -/
def positionFrom (offset : Nat) : List Char → (seen line start : Nat) → Position
  | [], _, line, start => ⟨line, offset - start⟩
  | c :: rest, seen, line, start =>
    if offset ≤ seen then ⟨line, offset - start⟩
    else if c = '\n' then positionFrom offset rest (seen + 1) (line + 1) (seen + 1)
    else positionFrom offset rest (seen + c.utf8Size) line start

/-- The position after `offset` bytes of a text. -/
def position (text : List Char) (offset : Nat) : Position := positionFrom offset text 0 1 0

def Position.text (p : Position) : String :=
  " at line " ++ toString p.line ++ " column " ++ toString p.column

/-- The message for a fault of a text. -/
def ReadFault.message (f : ReadFault) (text : List Char) : String :=
  f.cause.message ++ (position text f.offset).text

end GuardedCall.Json
