-- Texts as bytes: UTF-8 written and read.
namespace GuardedCall.Text.Utf8

/-- The bytes of a list of characters. -/
def encode (cs : List Char) : List UInt8 := cs.flatMap String.utf8EncodeChar

/-- A byte behind the first one of a character. -/
def isTail (b : UInt8) : Bool := 0x80 ≤ b && b < 0xC0

/-- The six bits of such a byte. -/
def tailBits (b : UInt8) : Nat := b.toNat % 64

/-- The code point of two bytes, if they are a character. -/
def two? (a b : UInt8) : Option Nat :=
  if 0xC2 ≤ a ∧ a < 0xE0 ∧ isTail b then some (a.toNat % 32 * 64 + tailBits b) else none

/-- The code point of three bytes, if they are a character. -/
def three? (a b c : UInt8) : Option Nat :=
  let n := (a.toNat % 16 * 64 + tailBits b) * 64 + tailBits c
  if 0xE0 ≤ a ∧ a < 0xF0 ∧ isTail b ∧ isTail c ∧ 0x800 ≤ n ∧ ¬(0xD800 ≤ n ∧ n < 0xE000) then some n
  else none

/-- The code point of four bytes, if they are a character. -/
def four? (a b c d : UInt8) : Option Nat :=
  let n := ((a.toNat % 8 * 64 + tailBits b) * 64 + tailBits c) * 64 + tailBits d
  if 0xF0 ≤ a ∧ a < 0xF8 ∧ isTail b ∧ isTail c ∧ isTail d ∧ 0x10000 ≤ n ∧ n < 0x110000 then some n
  else none

/-- The characters that bytes begin with, and whether no byte is left over.
`seen` holds the characters before, the last one first. -/
def decodeFrom : List UInt8 → List Char → List Char × Bool
  | [], seen => (seen.reverse, true)
  | a :: [], seen => if a < 0x80 then (seen.reverse ++ [Char.ofNat a.toNat], true) else (seen.reverse, false)
  | a :: b :: rest, seen =>
    if a < 0x80 then decodeFrom (b :: rest) (Char.ofNat a.toNat :: seen)
    else
      match two? a b, rest with
      | some n, rest => decodeFrom rest (Char.ofNat n :: seen)
      | none, c :: rest =>
        match three? a b c, rest with
        | some n, rest => decodeFrom rest (Char.ofNat n :: seen)
        | none, d :: rest =>
          match four? a b c d with
          | some n => decodeFrom rest (Char.ofNat n :: seen)
          | none => (seen.reverse, false)
        | none, [] => (seen.reverse, false)
      | none, [] => (seen.reverse, false)

/-- The characters that bytes begin with, and whether no byte is left over. -/
def decode (bytes : List UInt8) : List Char × Bool := decodeFrom bytes []

end GuardedCall.Text.Utf8
