-- A text in double quotes, as messages show it: a reader can tell where
-- it starts, where it ends, and which characters it has, also those that
-- have no form of their own on the page.
import GuardedCall.Text.UnprintableTable
import GuardedCall.Text.CombiningTable

namespace GuardedCall.Text

/-- A code point lies in one of the ranges. -/
def inRanges (ranges : List (Nat × Nat)) (n : Nat) : Bool :=
  ranges.any fun r => r.1 ≤ n && n ≤ r.2

/-- A character that a quoted text shows as itself. ASCII needs no table. -/
def isShown (c : Char) : Bool :=
  let n := c.toNat
  if n < 0x7F then 0x20 ≤ n
  else !inRanges unprintableRanges n && !inRanges combiningRanges n

/-- A number in base sixteen with small letters and no leading zeros. -/
def hex (n : Nat) : List Char := Nat.toDigits 16 n

def quoteChar (c : Char) : List Char :=
  if c = '"' then ['\\', '"']
  else if c = '\\' then ['\\', '\\']
  else if c = '\n' then ['\\', 'n']
  else if c = '\r' then ['\\', 'r']
  else if c = '\t' then ['\\', 't']
  else if c = '\x00' then ['\\', '0']
  else if isShown c then [c]
  else ['\\', 'u', '\x7b'] ++ hex c.toNat ++ ['\x7d']

/-- A text in double quotes, with what is not shown as itself escaped. -/
def quoted (s : String) : String :=
  String.ofList ('"' :: s.toList.flatMap quoteChar ++ ['"'])

/-- Texts between backquotes are how messages name a field or a number. -/
def ticked (s : String) : String := "`" ++ s ++ "`"

/-- The items with a separator between each two. -/
def joinWith (separator : String) (items : List String) : String :=
  separator.intercalate items

end GuardedCall.Text
