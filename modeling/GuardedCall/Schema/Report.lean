-- What a schema says about a value: what the value has against it, and which
-- of its parts the schema has looked at.
import GuardedCall.Schema.Violation

namespace GuardedCall.Schema

open GuardedCall

/-- What a schema says about a value. -/
structure Report where
  /-- Everything that is wrong, in order. -/
  violations : List Violation := []
  /-- The names of the members of an object that were looked at. -/
  names : List String := []
  /-- The places of the items of an array that were looked at. -/
  places : List Nat := []

/-- The meaning of a schema. -/
abbrev Check := Json → Report

namespace Report

/-- Nothing is wrong. -/
def holds (r : Report) : Bool := r.violations.isEmpty

end Report

/-- The check that lets every value pass. -/
def Check.pass : Check := fun _ => {}

/-- The check that lets no value pass. -/
def Check.refuse : Check := fun v => { violations := [.nothingAllowed v] }

/-- The value of a keyword with its readings as schemas. -/
structure Part where
  value : Json
  /-- The value as a schema. -/
  check : Check
  /-- The members of the value as schemas. -/
  named : List (String × Check)
  /-- The items of the value as schemas. -/
  listed : List Check

/-- The keywords of a schema. -/
abbrev Parts := Table Part

namespace Parts

def value? (ps : Parts) (key : String) : Option Json := (ps.find? key).map (·.value)

def check? (ps : Parts) (key : String) : Option Check := (ps.find? key).map (·.check)

/-- The schemas by name of a keyword. -/
def named (ps : Parts) (key : String) : List (String × Check) :=
  match ps.find? key with
  | some p => p.named
  | none => []

/-- The list of schemas of a keyword. -/
def listed (ps : Parts) (key : String) : List Check :=
  match ps.find? key with
  | some p => p.listed
  | none => []

def number? (ps : Parts) (key : String) : Option Number :=
  match ps.value? key with
  | some (.number n) => some n
  | _ => none

def countOf : Number → Option Nat
  | .whole n => if 0 ≤ n then some n.toNat else none
  | .double x => if x.isIntegral && (0 ≤ x.toInt) then some x.toInt.toNat else none

def count? (ps : Parts) (key : String) : Option Nat := (ps.number? key).bind countOf

def text? (ps : Parts) (key : String) : Option String :=
  match ps.value? key with
  | some (.string s) => some s
  | _ => none

/-- The texts of a list, without what is no text. -/
def textsOf : Json → List String
  | .array items => items.filterMap fun
    | .string s => some s
    | _ => none
  | _ => []

def texts (ps : Parts) (key : String) : List String :=
  match ps.value? key with
  | some v => textsOf v
  | none => []

end Parts

end GuardedCall.Schema
