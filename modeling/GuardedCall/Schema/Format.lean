-- The formats of texts that are checked where a dialect asks for it: `ipv4`,
-- `date` and `regex`.
--
-- A text of any other format passes unread, whether the standard knows the
-- format (`date-time`, `time`, `email`, `hostname`, `ipv6`, `uri`,
-- `json-pointer` and their kin) or not. What a text holds is not read either:
-- `contentEncoding`, `contentMediaType` and `contentSchema` ask for nothing.
import GuardedCall.Schema.Pattern

namespace GuardedCall.Schema

def decimalValue (ds : List Char) : Nat :=
  ds.foldl (fun n d => 10 * n + (d.toNat - '0'.toNat)) 0

/-- Up to three digits without a leading zero, at most 255. -/
def isOctet (ds : List Char) : Bool :=
  ds.all Char.isDigit && 1 ≤ ds.length && ds.length ≤ 3 && (ds.length == 1 || ds.head? != some '0') &&
    decimalValue ds ≤ 255

def isIpv4 (text : List Char) : Bool :=
  let parts := text.splitOn '.'
  parts.length == 4 && parts.all isOctet

/-- A year of the Gregorian calendar with a twenty-ninth of February. -/
def isLeapYear (year : Nat) : Bool :=
  year % 4 == 0 && (year % 100 != 0 || year % 400 == 0)

/-- The number of days of a month, or zero when there is no such month. -/
def daysInMonth (year month : Nat) : Nat :=
  if month = 2 then if isLeapYear year then 29 else 28
  else if month ∈ [4, 6, 9, 11] then 30
  else if 1 ≤ month ∧ month ≤ 12 then 31
  else 0

/-- A day as four digits of the year, two of the month and two of the day. -/
def isDate (text : List Char) : Bool :=
  match text with
  | [y, e, a, r, '-', m, o, '-', d, t] =>
    [y, e, a, r, m, o, d, t].all Char.isDigit &&
      1 ≤ decimalValue [d, t] &&
      decimalValue [d, t] ≤ daysInMonth (decimalValue [y, e, a, r]) (decimalValue [m, o])
  | _ => false

/-- The text has the format. Every text has a format that is not known. -/
def hasFormat (format : String) (s : String) : Bool :=
  if format = "ipv4" then isIpv4 s.toList
  else if format = "date" then isDate s.toList
  else if format = "regex" then (Pattern.ofText? s).isSome
  else true

end GuardedCall.Schema
