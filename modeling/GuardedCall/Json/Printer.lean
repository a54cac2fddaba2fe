-- The text of a JSON value: no blanks, the keys in order, every character
-- as itself unless JSON asks for an escape.
import GuardedCall.Number.Decimal
import GuardedCall.Json.Value

namespace GuardedCall.Json

/-! ## Numbers -/

/-- A double is written positionally while its first digit stands between
`10 ^ -5` and `10 ^ 15`, and a whole one keeps its point. -/
def doubleLayout : Layout := ⟨some (-5), some 15, true⟩

def doubleText (x : Double) : List Char :=
  (if x.negative then ['-'] else []) ++ doubleLayout.text (Decimal.shortest x)

def wholeText (n : Int) : List Char :=
  (if n < 0 then ['-'] else []) ++ Nat.toDigits 10 n.natAbs

def numberText : Number → List Char
  | .whole n => wholeText n
  | .double x => doubleText x

/-! ## Strings -/

def hexDigit (n : Nat) : Char := Nat.digitChar (n % 16)

/-- One character of a string. Only quotes, backslashes and the characters
below the space are escaped. -/
def charText (c : Char) : List Char :=
  if c = '"' then ['\\', '"']
  else if c = '\\' then ['\\', '\\']
  else if c = '\x08' then ['\\', 'b']
  else if c = '\t' then ['\\', 't']
  else if c = '\n' then ['\\', 'n']
  else if c = '\x0c' then ['\\', 'f']
  else if c = '\r' then ['\\', 'r']
  else if c < ' ' then ['\\', 'u', '0', '0', hexDigit (c.toNat / 16), hexDigit c.toNat]
  else [c]

/-- The text of a string, in quotes. -/
def stringText (s : String) : List Char :=
  '"' :: s.toList.flatMap charText ++ ['"']

/-! ## Values -/

mutual

def chars : Json → List Char
  | .null => ['n', 'u', 'l', 'l']
  | .bool true => ['t', 'r', 'u', 'e']
  | .bool false => ['f', 'a', 'l', 's', 'e']
  | .number n => numberText n
  | .string s => stringText s
  | .array [] => ['[', ']']
  | .array (v :: rest) => '[' :: chars v ++ itemsText rest
  | .object [] => ['\x7b', '\x7d']
  | .object ((k, v) :: rest) => '\x7b' :: stringText k ++ ':' :: chars v ++ membersText rest

/-- The text of the further items and of the end of an array. -/
def itemsText : List Json → List Char
  | [] => [']']
  | v :: rest => ',' :: chars v ++ itemsText rest

/-- The text of the further members and of the end of an object. -/
def membersText : List (String × Json) → List Char
  | [] => ['\x7d']
  | (k, v) :: rest => ',' :: stringText k ++ ':' :: chars v ++ membersText rest

end

def text (v : Json) : String := String.ofList (chars v)

end GuardedCall.Json
