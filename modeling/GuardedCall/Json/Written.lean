-- A JSON text as it is written: the members of an object in the order of
-- the text and also those that are there twice, every part with its place,
-- and up to the first fault if the text has one.
import GuardedCall.Json.Fault
import GuardedCall.Json.Value

namespace GuardedCall.Json

/-- The bytes of a text from one offset to another. -/
structure Span where
  start : Nat
  stop : Nat
deriving DecidableEq, Inhabited

/-- A value without parts. -/
inductive Scalar where
  | null
  | bool (b : Bool)
  | number (n : Number)
  | string (s : String)
deriving DecidableEq, Inhabited

def Scalar.toJson : Scalar → Json
  | .null => .null
  | .bool b => .bool b
  | .number n => .number n
  | .string s => .string s

/-- The key of a member: where the key ends, and where the first character
after the blanks behind the value of the member stands. -/
structure Key where
  name : String
  stop : Nat
  after : Nat
deriving DecidableEq, Inhabited

/-- A JSON text as it is written. An array or an object that is not closed
carries the fault that ended it. -/
inductive Written where
  | scalar (span : Span) (value : Scalar)
  | tooLarge (span : Span) (offset : Nat)
  | array (span : Span) (items : List Written) (ending : Option ReadFault)
  | object (span : Span) (members : List (Key × Written)) (ending : Option ReadFault)
  | broken (start : Nat) (fault : ReadFault)
deriving Inhabited

namespace Written

/-- Where the text of a value starts. -/
def start : Written → Nat
  | .scalar s _ | .tooLarge s _ | .array s _ _ | .object s _ _ => s.start
  | .broken n _ => n

/-- Where the text of a value ends. -/
def stop : Written → Nat
  | .scalar s _ | .tooLarge s _ | .array s _ _ | .object s _ _ => s.stop
  | .broken n _ => n

/-! ## The value of a text -/

/-- The fault that ended an array or an object, if one did. -/
def closed (ending : Option ReadFault) : Except ReadFault Unit :=
  match ending with
  | none => .ok ()
  | some f => .error f

mutual

/-- The value that is written, or the first fault of the text. Of members
with one key the last one counts. -/
def toJson : Written → Except ReadFault Json
  | .scalar _ s => .ok s.toJson
  | .tooLarge _ n => .error ⟨.numberTooLarge, n⟩
  | .array _ items ending => do
    let values ← itemsToJson items
    closed ending
    return .array values
  | .object _ members ending => do
    let pairs ← membersToJson members
    closed ending
    return Json.ofPairs pairs
  | .broken _ f => .error f

/-- The values of the items, in order. -/
def itemsToJson : List Written → Except ReadFault (List Json)
  | [] => .ok []
  | w :: rest => do
    let v ← toJson w
    let vs ← itemsToJson rest
    return v :: vs

/-- The keys and values of the members, in order. -/
def membersToJson : List (Key × Written) → Except ReadFault (List (String × Json))
  | [] => .ok []
  | (k, w) :: rest => do
    let v ← toJson w
    let vs ← membersToJson rest
    return (k.name, v) :: vs

end

/-! ## A value as a text without places -/

mutual

/-- A value as if it were written in a text, its members in the order of
their keys. -/
def ofJson : Json → Written
  | .null => .scalar default .null
  | .bool b => .scalar default (.bool b)
  | .number n => .scalar default (.number n)
  | .string s => .scalar default (.string s)
  | .array items => .array default (itemsOfJson items) none
  | .object members => .object default (membersOfJson members) none

/-- The items of an array, written. -/
def itemsOfJson : List Json → List Written
  | [] => []
  | v :: rest => ofJson v :: itemsOfJson rest

/-- The members of an object, written. -/
def membersOfJson : List (String × Json) → List (Key × Written)
  | [] => []
  | (k, v) :: rest => (⟨k, 0, 0⟩, ofJson v) :: membersOfJson rest

end

end Written

end GuardedCall.Json
