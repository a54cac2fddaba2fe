-- The keywords that look at a value by itself: its type, its size and what
-- it may be.
import GuardedCall.Schema.Config
import GuardedCall.Schema.Format
import GuardedCall.Schema.Report

namespace GuardedCall.Schema

open GuardedCall

/-- The violation, unless the condition holds. -/
def expect (holds : Bool) (v : Violation) : List Violation := if holds then [] else [v]

/-! ## Types and values -/

def typeNames : List String :=
  ["array", "boolean", "integer", "null", "number", "object", "string"]

def hasType (v : Json) (type : String) : Bool :=
  match v with
  | .null => type == "null"
  | .bool _ => type == "boolean"
  | .number n => type == "number" || (type == "integer" && n.isIntegral)
  | .string _ => type == "string"
  | .array _ => type == "array"
  | .object _ => type == "object"

/-- The types that a value may have, in the order of their names. -/
def allowedTypes : Json → List String
  | .string s => [s]
  | v => let given := Parts.textsOf v
    typeNames.filter (· ∈ given)

def typeFaults (ps : Parts) (v : Json) : List Violation :=
  match ps.value? "type" with
  | some t => expect ((allowedTypes t).any (hasType v)) (.wrongType v (allowedTypes t))
  | none => []

def constFaults (ps : Parts) (v : Json) : List Violation :=
  match ps.value? "const" with
  | some expected => expect (expected.same v) (.notConstant expected)
  | none => []

def enumFaults (ps : Parts) (v : Json) : List Violation :=
  match ps.value? "enum" with
  | some (.array options) => expect (options.any (·.same v)) (.notListed v options)
  | _ => []

/-! ## Numbers -/

/-- The violation of a bound on numbers, if the value is a number beyond it. -/
def boundFaults (ps : Parts) (key : String) (within : Number → Number → Bool)
    (violation : Json → Number → Violation) (v : Json) : List Violation :=
  match ps.number? key, v with
  | some limit, .number n => expect (within n limit) (violation v limit)
  | _, _ => []

/-- A decimal as a whole multiple of the power of ten `10 ^ low`. -/
def scaledDigits (d : Decimal) (low : Int) : Nat := d.digits * Nat.pow 10 (d.exponent - low).toNat

/-- The value is a multiple of the divisor. A divisor without fractional part
divides whole numbers; another one divides decimals, and nothing below itself
but zero. -/
def isMultiple (value divisor : Number) : Bool :=
  let x := value.toDouble
  let d := divisor.toDouble
  if d.isIntegral then x.isIntegral && x.toInt % d.toInt == 0
  else if x.significand = 0 then true
  else if (Number.double x).lt (.double d) then false
  else
    let a := Decimal.shortest x
    let b := Decimal.shortest d
    let low := min a.exponent b.exponent
    scaledDigits a low % scaledDigits b low == 0

def numberFaults (ps : Parts) (v : Json) : List Violation :=
  boundFaults ps "minimum" (fun n limit => !n.lt limit) .belowMinimum v ++
    boundFaults ps "maximum" (fun n limit => !limit.lt n) .aboveMaximum v ++
    boundFaults ps "exclusiveMinimum" (fun n limit => limit.lt n) .notAboveMinimum v ++
    boundFaults ps "exclusiveMaximum" (fun n limit => n.lt limit) .notBelowMaximum v ++
    boundFaults ps "multipleOf" isMultiple .notMultiple v

/-! ## Sizes -/

/-- The size of a string, an array or an object. -/
inductive Size where
  | characters
  | items
  | members
deriving DecidableEq

/-- How large a value is, if it has a size of this kind. -/
def Size.of? : Size → Json → Option Nat
  | .characters, .string s => some s.length
  | .items, .array xs => some xs.length
  | .members, .object ms => some ms.length
  | _, _ => none

/-- The violation of a bound on a size. -/
def sizeFaults (ps : Parts) (key : String) (size : Size) (within : Nat → Nat → Bool)
    (violation : Json → Nat → Violation) (v : Json) : List Violation :=
  match ps.count? key, size.of? v with
  | some limit, some n => expect (within n limit) (violation v limit)
  | _, _ => []

def sizesFaults (ps : Parts) (v : Json) : List Violation :=
  sizeFaults ps "minLength" .characters (fun n limit => limit ≤ n) .tooShort v ++
    sizeFaults ps "maxLength" .characters (fun n limit => n ≤ limit) .tooLong v ++
    sizeFaults ps "minItems" .items (fun n limit => limit ≤ n) .tooFewItems v ++
    sizeFaults ps "maxItems" .items (fun n limit => n ≤ limit) .tooManyItems v ++
    sizeFaults ps "minProperties" .members (fun n limit => limit ≤ n) .tooFewProperties v ++
    sizeFaults ps "maxProperties" .members (fun n limit => n ≤ limit) .tooManyProperties v

/-! ## Texts and lists -/

/-- The text matches the pattern; a text that writes no pattern matches all. -/
def matchesPattern (pattern s : String) : Bool :=
  match Pattern.ofText? pattern with
  | some p => p.matchesText s
  | none => true

def patternFaults (ps : Parts) (v : Json) : List Violation :=
  match ps.text? "pattern", v with
  | some pattern, .string s => expect (matchesPattern pattern s) (.noMatch v pattern)
  | _, _ => []

/-- Only the oldest dialect insists on a format. -/
def formatFaults (dialect : Dialect) (ps : Parts) (v : Json) : List Violation :=
  match dialect, ps.text? "format", v with
  | .draft7, some format, .string s => expect (hasFormat format s) (.badFormat v format)
  | _, _, _ => []

def allDistinct : List Json → Bool
  | [] => true
  | v :: rest => !rest.any (Json.same v) && allDistinct rest

def uniqueFaults (ps : Parts) (v : Json) : List Violation :=
  match ps.value? "uniqueItems", v with
  | some (.bool true), .array items => expect (allDistinct items) (.repeatedItems v)
  | _, _ => []

end GuardedCall.Schema
