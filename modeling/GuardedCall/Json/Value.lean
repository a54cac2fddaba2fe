-- JSON values. The members of an object are a table, so each key is there
-- once and the keys are in order.
import GuardedCall.Number.Basic
import GuardedCall.Table

namespace GuardedCall

/-- A JSON value. -/
inductive Json where
  | null
  | bool (b : Bool)
  | number (n : Number)
  | string (s : String)
  | array (items : List Json)
  | object (members : List (String × Json))
deriving Inhabited

namespace Json

/-- A whole number as a JSON value. -/
def whole (n : Int) : Json := .number (.whole n)

/-- A double as a JSON value; one that is no number becomes `null`. -/
def ofDouble (x : Double) : Json := if x.isFinite then .number (.double x) else .null

/-- An object with the members of a list of pairs. -/
def ofPairs (pairs : List (String × Json)) : Json := .object (Table.ofList pairs)

/-- The member of an object under a key. -/
def member? (v : Json) (key : String) : Option Json :=
  match v with
  | .object members => Table.find? members key
  | _ => none

/-! ## Well-formed values -/

mutual

/-- The keys of every object are in order and every number is one that JSON
holds. Reading a text gives only such values. -/
def Valid : Json → Prop
  | .null | .bool _ | .string _ => True
  | .number n => n.Valid
  | .array items => ValidItems items
  | .object members => Table.Sorted members ∧ ValidMembers members

def ValidItems : List Json → Prop
  | [] => True
  | v :: rest => Valid v ∧ ValidItems rest

/-- The value of every member is well formed. -/
def ValidMembers : List (String × Json) → Prop
  | [] => True
  | (_, v) :: rest => Valid v ∧ ValidMembers rest

end

/-! ## Depth -/

mutual

/-- How deep arrays and objects nest in a value. -/
def depth : Json → Nat
  | .null | .bool _ | .number _ | .string _ => 0
  | .array items => depthItems items + 1
  | .object members => depthMembers members + 1

def depthItems : List Json → Nat
  | [] => 0
  | v :: rest => max (depth v) (depthItems rest)

/-- The largest depth of the values of the members. -/
def depthMembers : List (String × Json) → Nat
  | [] => 0
  | (_, v) :: rest => max (depth v) (depthMembers rest)

end

/-! ## Equality of values -/

mutual

/-- The two values are the same, where `1` and `1.0` are one number. -/
def same : Json → Json → Bool
  | .null, .null => true
  | .bool a, .bool b => a == b
  | .number a, .number b => a.same b
  | .string a, .string b => a == b
  | .array xs, .array ys => sameItems xs ys
  | .object xs, .object ys => sameMembers xs ys
  | _, _ => false

/-- The items are the same one by one. -/
def sameItems : List Json → List Json → Bool
  | [], [] => true
  | x :: xs, y :: ys => same x y && sameItems xs ys
  | _, _ => false

/-- The members are the same one by one. -/
def sameMembers : List (String × Json) → List (String × Json) → Bool
  | [], [] => true
  | (k, x) :: xs, (l, y) :: ys => k == l && same x y && sameMembers xs ys
  | _, _ => false

end

end Json

end GuardedCall
