-- Reading JSON texts. A reader goes from a cursor to what is written there
-- and to the cursor behind it; after a fault there is no cursor.
import GuardedCall.Json.Written

namespace GuardedCall.Json

/-- The characters that are left to read and the number of bytes before them. -/
structure Cursor where
  rest : List Char
  offset : Nat

/-- A blank of JSON: space, tab, line feed or carriage return. -/
def isBlank (c : Char) : Bool := c = ' ' || c = '\n' || c = '\t' || c = '\r'

/-- The cursor behind the blanks. -/
def skipBlanks : List Char → Nat → Cursor
  | [], n => ⟨[], n⟩
  | c :: rest, n => if isBlank c then skipBlanks rest (n + 1) else ⟨c :: rest, n⟩

def Cursor.trim (c : Cursor) : Cursor := skipBlanks c.rest c.offset

/-- The bytes of a list of characters. -/
def byteCount (cs : List Char) : Nat := cs.foldl (fun n c => n + c.utf8Size) 0

/-! ## Strings -/

def hexValue? (c : Char) : Option Nat :=
  if '0' ≤ c ∧ c ≤ '9' then some (c.toNat - 48)
  else if 'a' ≤ c ∧ c ≤ 'f' then some (c.toNat - 87)
  else if 'A' ≤ c ∧ c ≤ 'F' then some (c.toNat - 55)
  else none

def hexUnit? (a b c d : Char) : Option Nat := do
  let a ← hexValue? a
  let b ← hexValue? b
  let c ← hexValue? c
  let d ← hexValue? d
  return ((a * 16 + b) * 16 + c) * 16 + d

/-- A unit that only a second one makes a character. -/
def isFirstHalf (u : Nat) : Bool := 0xD800 ≤ u && u < 0xDC00

/-- A unit that completes a first half. -/
def isSecondHalf (u : Nat) : Bool := 0xDC00 ≤ u && u < 0xE000

/-- The character of two halves. -/
def joinHalves (first second : Nat) : Char :=
  Char.ofNat ((first - 0xD800) * 0x400 + (second - 0xDC00) + 0x10000)

/-- The character of an escape of one letter. -/
def shortEscape? (c : Char) : Option Char :=
  if c = '"' then some '"'
  else if c = '\\' then some '\\'
  else if c = '/' then some '/'
  else if c = 'b' then some '\x08'
  else if c = 'f' then some '\x0c'
  else if c = 'n' then some '\n'
  else if c = 'r' then some '\r'
  else if c = 't' then some '\t'
  else none

/-- The fault of an escape by number that is no four characters long, where
`offset` bytes come before its digits. -/
def shortUnitFault (digits : List Char) (offset : Nat) : ReadFault :=
  if byteCount digits < 4 then ⟨.endInString, offset + byteCount digits⟩
  else ⟨.badEscape, offset + 4⟩

/-- The fault behind a first half that no second half follows. -/
def unpairedFault (rest : List Char) (offset : Nat) : ReadFault :=
  match rest with
  | [] => ⟨.endInString, offset⟩
  | '\\' :: [] => ⟨.endInString, offset + 1⟩
  | '\\' :: 'u' :: digits => shortUnitFault digits (offset + 2)
  | '\\' :: _ => ⟨.unfinishedPair, offset + 2⟩
  | _ => ⟨.unfinishedPair, offset + 1⟩

/-- The string up to its closing quote, where `seen` holds the characters
before, the last one first. -/
def readChars : List Char → Nat → List Char → Except ReadFault (String × Cursor)
  | [], n, _ => .error ⟨.endInString, n⟩
  | '"' :: rest, n, seen => .ok (String.ofList seen.reverse, ⟨rest, n + 1⟩)
  | '\\' :: 'u' :: a :: b :: c :: d :: rest, n, seen =>
    match hexUnit? a b c d with
    | none => .error ⟨.badEscape, n + 6⟩
    | some first =>
      if isSecondHalf first then .error ⟨.loneHalf, n + 6⟩
      else if isFirstHalf first then
        match rest with
        | '\\' :: 'u' :: e :: f :: g :: h :: rest' =>
          match hexUnit? e f g h with
          | none => .error ⟨.badEscape, n + 12⟩
          | some second =>
            if isSecondHalf second then readChars rest' (n + 12) (joinHalves first second :: seen)
            else .error ⟨.loneHalf, n + 12⟩
        | other => .error (unpairedFault other (n + 6))
      else readChars rest (n + 6) (Char.ofNat first :: seen)
  | '\\' :: 'u' :: digits, n, _ => .error (shortUnitFault digits (n + 2))
  | '\\' :: c :: rest, n, seen =>
    match shortEscape? c with
    | none => .error ⟨.badEscape, n + 2⟩
    | some plain => readChars rest (n + 2) (plain :: seen)
  | '\\' :: [], n, _ => .error ⟨.endInString, n + 1⟩
  | c :: rest, n, seen =>
    if c < ' ' then .error ⟨.controlCharacter, n + 1⟩
    else readChars rest (n + c.utf8Size) (c :: seen)

/-! ## Numbers -/

/-- A run of digits: its value, how many there are, and the cursor behind. -/
def readDigits : List Char → (offset value count : Nat) → Nat × Nat × Cursor
  | [], n, value, count => (value, count, ⟨[], n⟩)
  | c :: rest, n, value, count =>
    if c.isDigit then readDigits rest (n + 1) (value * 10 + (c.toNat - 48)) (count + 1)
    else (value, count, ⟨c :: rest, n⟩)

/-- The fault of a place where a digit must stand and none does. -/
def digitFault (c : Cursor) : ReadFault :=
  match c.rest with
  | [] => ⟨.endInValue, c.offset⟩
  | _ => ⟨.badNumber, c.offset + 1⟩

/-- The largest exponent that is read to its end. -/
def exponentLimit : Nat := 2147483647

/-- The bytes of an exponent up to the digit that takes it past the limit. -/
def limitOffset : List Char → (offset value : Nat) → Nat
  | [], n, _ => n
  | c :: rest, n, value =>
    if c.isDigit then
      if exponentLimit < value * 10 + (c.toNat - 48) then n + 1
      else limitOffset rest (n + 1) (value * 10 + (c.toNat - 48))
    else n

/-- A number: its value, or the offset at which it proved too large. -/
inductive NumberRead where
  | value (n : Number)
  | tooLarge (offset : Nat)

/-- The double of digits and an exponent. -/
def readDouble (negative : Bool) (digits : Nat) (exponent : Int) (offset : Nat) : NumberRead :=
  match Double.ofDecimal negative digits exponent with
  | some x => .value (.double x)
  | none => .tooLarge offset

def readExponent (negative : Bool) (digits : Nat) (exponent : Int) (c : Cursor) :
    Except ReadFault (NumberRead × Cursor) :=
  let (down, c) :=
    match c.rest with
    | '+' :: rest => (false, Cursor.mk rest (c.offset + 1))
    | '-' :: rest => (true, Cursor.mk rest (c.offset + 1))
    | _ => (false, c)
  let (value, count, next) := readDigits c.rest c.offset 0 0
  if count = 0 then .error (digitFault c)
  else
    let power : Int := if down then exponent - value else exponent + value
    .ok (readDouble negative digits power (limitOffset c.rest c.offset 0), next)

/-- A number whose digits and exponent so far are known. -/
def readScaled (negative : Bool) (digits : Nat) (exponent : Int) (c : Cursor) :
    Except ReadFault (NumberRead × Cursor) :=
  match c.rest with
  | 'e' :: rest | 'E' :: rest => readExponent negative digits exponent ⟨rest, c.offset + 1⟩
  | _ => .ok (readDouble negative digits exponent c.offset, c)

/-- A number without point and exponent is a whole number if sixty-four bits
hold it and it is no negative zero. -/
def wholeOrDouble (negative : Bool) (digits offset : Nat) : NumberRead :=
  let n : Int := if negative then -digits else digits
  if Number.FitsWord n ∧ ¬(negative ∧ digits = 0) then .value (.whole n)
  else readDouble negative digits 0 offset

/-- A number whose whole part is known. -/
def readAfterWhole (negative : Bool) (digits : Nat) (c : Cursor) :
    Except ReadFault (NumberRead × Cursor) :=
  match c.rest with
  | '.' :: rest =>
    let point : Cursor := ⟨rest, c.offset + 1⟩
    let (value, count, next) := readDigits rest (c.offset + 1) digits 0
    if count = 0 then .error (digitFault point) else readScaled negative value (-count) next
  | 'e' :: _ | 'E' :: _ => readScaled negative digits 0 c
  | _ => .ok (wholeOrDouble negative digits c.offset, c)

/-- A number behind its sign. -/
def readMagnitude (negative : Bool) (c : Cursor) : Except ReadFault (NumberRead × Cursor) :=
  match c.rest with
  | '0' :: d :: rest =>
    if d.isDigit then .error ⟨.badNumber, c.offset + 2⟩
    else readAfterWhole negative 0 ⟨d :: rest, c.offset + 1⟩
  | d :: rest =>
    if d.isDigit then
      let (value, _, next) := readDigits (d :: rest) c.offset 0 0
      readAfterWhole negative value next
    else .error (digitFault c)
  | [] => .error (digitFault c)

/-! ## Values -/

/-- What is written at a place, and the cursor behind it. -/
abbrev Reading := Written × Option Cursor

/-- A fault where a value must stand. -/
def failed (start : Nat) (fault : ReadFault) : Reading := (.broken start fault, none)

/-- The letters of a word that must follow. -/
def readWord (letters : List Char) (c : Cursor) : Except ReadFault Cursor :=
  match letters, c.rest with
  | [], _ => .ok c
  | _, [] => .error ⟨.endInValue, c.offset⟩
  | l :: letters, d :: rest =>
    if l = d then readWord letters ⟨rest, c.offset + 1⟩ else .error ⟨.expectedWord, c.offset + 1⟩

/-- A word that stands for a value. -/
def wordReading (value : Scalar) (letters : List Char) (start : Nat) (c : Cursor) : Reading :=
  match readWord letters c with
  | .ok next => (.scalar ⟨start, next.offset⟩ value, some next)
  | .error f => failed start f

def numberReading (start : Nat) (r : Except ReadFault (NumberRead × Cursor)) : Reading :=
  match r with
  | .ok (.value n, next) => (.scalar ⟨start, next.offset⟩ (.number n), some next)
  | .ok (.tooLarge offset, next) => (.tooLarge ⟨start, next.offset⟩ offset, some next)
  | .error f => failed start f

/-- The parts of an array or an object, with the fault that ended it or the
cursor behind its bracket. -/
structure Parts (α : Type) where
  list : List α
  ending : Option ReadFault
  next : Option Cursor

namespace Parts

variable {α : Type}

/-- No further parts, and a fault. -/
def stopped (fault : ReadFault) : Parts α := ⟨[], some fault, none⟩

/-- No further parts, and the end. -/
def done (next : Cursor) : Parts α := ⟨[], none, some next⟩

/-- One more part in front. -/
def cons (part : α) (p : Parts α) : Parts α := { p with list := part :: p.list }

end Parts

/-- The items behind the first one, where `one` reads a value and `fuel`
bounds their number. -/
def readItems (one : Cursor → Reading) : Nat → Cursor → Parts Written
  | 0, c => .stopped ⟨.endInList, c.offset⟩
  | fuel + 1, c =>
    let c := c.trim
    match c.rest with
    | [] => .stopped ⟨.endInList, c.offset⟩
    | ']' :: rest => .done ⟨rest, c.offset + 1⟩
    | ',' :: rest =>
      let c := Cursor.trim ⟨rest, c.offset + 1⟩
      match c.rest with
      | [] => .stopped ⟨.endInValue, c.offset⟩
      | ']' :: _ => .stopped ⟨.trailingComma, c.offset + 1⟩
      | _ =>
        match one c with
        | (w, none) => ⟨[w], none, none⟩
        | (w, some next) => (readItems one fuel next).cons w
    | _ => .stopped ⟨.expectedListEnd, c.offset + 1⟩

/-- The items of an array behind its opening bracket. -/
def readFirstItem (one : Cursor → Reading) (c : Cursor) : Parts Written :=
  let c := c.trim
  match c.rest with
  | [] => .stopped ⟨.endInList, c.offset⟩
  | ']' :: rest => .done ⟨rest, c.offset + 1⟩
  | _ =>
    match one c with
    | (w, none) => ⟨[w], none, none⟩
    | (w, some next) => (readItems one next.rest.length next).cons w

/-- The value behind a key, and the cursor behind it. -/
def readMemberValue (one : Cursor → Reading) (c : Cursor) : Reading :=
  let c := c.trim
  match c.rest with
  | [] => failed c.offset ⟨.endInObject, c.offset⟩
  | ':' :: rest => one ⟨rest, c.offset + 1⟩
  | _ => failed c.offset ⟨.expectedColon, c.offset + 1⟩

/-- One member behind the quote that opens its key: the member and the
cursor behind it, or the fault of the key. -/
def readMember (one : Cursor → Reading) (rest : List Char) (offset : Nat) :
    Except ReadFault ((Key × Written) × Option Cursor) :=
  match readChars rest offset [] with
  | .error f => .error f
  | .ok (name, c) =>
    match readMemberValue one c with
    | (w, none) => .ok ((⟨name, c.offset, c.offset⟩, w), none)
    | (w, some next) => .ok ((⟨name, c.offset, next.trim.offset⟩, w), some next)

/-- The members behind the first one, where `one` reads a value and `fuel`
bounds their number. -/
def readMembers (one : Cursor → Reading) : Nat → Cursor → Parts (Key × Written)
  | 0, c => .stopped ⟨.endInObject, c.offset⟩
  | fuel + 1, c =>
    let c := c.trim
    match c.rest with
    | [] => .stopped ⟨.endInObject, c.offset⟩
    | '\x7d' :: rest => .done ⟨rest, c.offset + 1⟩
    | ',' :: rest =>
      let c := Cursor.trim ⟨rest, c.offset + 1⟩
      match c.rest with
      | [] => .stopped ⟨.endInValue, c.offset⟩
      | '\x7d' :: _ => .stopped ⟨.trailingComma, c.offset + 1⟩
      | '"' :: rest =>
        match readMember one rest (c.offset + 1) with
        | .error f => .stopped f
        | .ok (m, none) => ⟨[m], none, none⟩
        | .ok (m, some next) => (readMembers one fuel next).cons m
      | _ => .stopped ⟨.keyNotString, c.offset + 1⟩
    | _ => .stopped ⟨.expectedObjectEnd, c.offset + 1⟩

/-- The members of an object behind its opening bracket. -/
def readFirstMember (one : Cursor → Reading) (c : Cursor) : Parts (Key × Written) :=
  let c := c.trim
  match c.rest with
  | [] => .stopped ⟨.endInObject, c.offset⟩
  | '\x7d' :: rest => .done ⟨rest, c.offset + 1⟩
  | '"' :: rest =>
    match readMember one rest (c.offset + 1) with
    | .error f => .stopped f
    | .ok (m, none) => ⟨[m], none, none⟩
    | .ok (m, some next) => (readMembers one next.rest.length next).cons m
  | _ => .stopped ⟨.keyNotString, c.offset + 1⟩

/-- The offset at which parts end. -/
def Parts.stopOr {α : Type} (p : Parts α) (start : Nat) : Nat :=
  match p.next with
  | some c => c.offset
  | none => start

/-- A value, where `inner` reads the values inside an array or an object.
Without `inner` arrays and objects are too deep. -/
def readNested (inner : Option (Cursor → Reading)) (c : Cursor) : Reading :=
  let c := c.trim
  let start := c.offset
  match c.rest with
  | [] => failed start ⟨.endInValue, start⟩
  | 'n' :: rest => wordReading .null ['u', 'l', 'l'] start ⟨rest, start + 1⟩
  | 't' :: rest => wordReading (.bool true) ['r', 'u', 'e'] start ⟨rest, start + 1⟩
  | 'f' :: rest => wordReading (.bool false) ['a', 'l', 's', 'e'] start ⟨rest, start + 1⟩
  | '"' :: rest =>
    match readChars rest (start + 1) [] with
    | .ok (s, next) => (.scalar ⟨start, next.offset⟩ (.string s), some next)
    | .error f => failed start f
  | '[' :: rest =>
    match inner with
    | none => failed start ⟨.tooDeep, start + 1⟩
    | some one =>
      let p := readFirstItem one ⟨rest, start + 1⟩
      (.array ⟨start, p.stopOr start⟩ p.list p.ending, p.next)
  | '\x7b' :: rest =>
    match inner with
    | none => failed start ⟨.tooDeep, start + 1⟩
    | some one =>
      let p := readFirstMember one ⟨rest, start + 1⟩
      (.object ⟨start, p.stopOr start⟩ p.list p.ending, p.next)
  | '-' :: rest => numberReading start (readMagnitude true ⟨rest, start + 1⟩)
  | d :: _ =>
    if d.isDigit then numberReading start (readMagnitude false c)
    else failed start ⟨.expectedValue, start + 1⟩

/-- A value in which arrays and objects nest at most `depth` deep. -/
def readValue : Nat → Cursor → Reading
  | 0 => readNested none
  | depth + 1 => readNested (some (readValue depth))

/-! ## Texts -/

/-- How deep arrays and objects may nest in a text. -/
def depthLimit : Nat := 127

/-- A whole text: what is written, and the fault of what stands behind it. -/
structure Document where
  written : Written
  trailing : Option ReadFault

/-- The fault of a text that goes on where it should end. -/
def trailingFault (c : Cursor) : Option ReadFault :=
  let c := c.trim
  match c.rest with
  | [] => none
  | _ => some ⟨.trailingText, c.offset + 1⟩

/-- A text as it is written, nesting at most `depth` deep. -/
def readDocument (depth : Nat) (text : List Char) : Document :=
  match readValue depth ⟨text, 0⟩ with
  | (w, none) => ⟨w, none⟩
  | (w, some next) => ⟨w, trailingFault next⟩

/-- The value of a text that nests at most `depth` deep. -/
def readWithin (depth : Nat) (text : List Char) : Except ReadFault Json := do
  let d := readDocument depth text
  let v ← d.written.toJson
  Written.closed d.trailing
  return v

/-- The value of a text. -/
def read (text : List Char) : Except ReadFault Json := readWithin depthLimit text

end GuardedCall.Json
