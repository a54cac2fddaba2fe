-- References from one place of a document to a schema at another place of
-- it, and the meaning of a document whose references are followed. A reference
-- is `#`, the whole document, or `#/` with the steps of a pointer.
--
-- No schema has a name here. `$id`, `$anchor`, `$dynamicAnchor` with
-- `$dynamicRef`, and `$recursiveAnchor` with `$recursiveRef` mean nothing. What
-- stands before the number sign of a reference is passed over, and what stands
-- behind it without a slash is read as the empty pointer. So a reference to an
-- anchor, or to another document, leads to the whole document, where the
-- standard has it lead to the schema of that name. A law about references is
-- one of JSON Schema only for documents whose references go by place.
import GuardedCall.Schema.Meaning
import GuardedCall.Text.Utf8

namespace GuardedCall.Schema

open GuardedCall

/-! ## Pointers -/

def hexValue? (c : Char) : Option Nat :=
  if '0' ≤ c ∧ c ≤ '9' then some (c.toNat - '0'.toNat)
  else if 'a' ≤ c ∧ c ≤ 'f' then some (c.toNat - 'a'.toNat + 10)
  else if 'A' ≤ c ∧ c ≤ 'F' then some (c.toNat - 'A'.toNat + 10)
  else none

/-- The bytes of a text in which a percent sign and two digits stand for a
byte. -/
def percentBytes : List Char → List UInt8
  | '%' :: a :: b :: rest =>
    match hexValue? a, hexValue? b with
    | some x, some y => UInt8.ofNat (16 * x + y) :: percentBytes rest
    | _, _ => Text.Utf8.encode ['%'] ++ percentBytes (a :: b :: rest)
  | c :: rest => Text.Utf8.encode [c] ++ percentBytes rest
  | [] => []

/-- One step of a pointer, its escapes undone. -/
def unescapeStep : List Char → List Char
  | '~' :: '1' :: rest => '/' :: unescapeStep rest
  | '~' :: '0' :: rest => '~' :: unescapeStep rest
  | c :: rest => c :: unescapeStep rest
  | [] => []

/-- The part of a value that one step leads to: a member by its key or an item
by its place. -/
def stepInto (v : Json) (step : List Char) : Option Json :=
  match v with
  | .object members => Table.find? members (String.ofList step)
  | .array items => if step.all Char.isDigit && !step.isEmpty then items[decimalValue step]? else none
  | _ => none

/-- The part of a value that the steps lead to. -/
def walk (v : Json) : List (List Char) → Option Json
  | [] => some v
  | step :: rest => (stepInto v step).bind (walk · rest)

def pointerSteps (pointer : List Char) : List (List Char) :=
  match (Text.Utf8.decode (percentBytes pointer)).1 with
  | '/' :: rest => (rest.splitOn '/').map unescapeStep
  | _ => []

/-- The pointer of a reference: what stands behind its number sign. -/
def pointerOf (reference : String) : List Char :=
  (reference.toList.dropWhile (· != '#')).drop 1

/-- The part of a document that a reference names. -/
def target? (root : Json) (reference : String) : Option Json :=
  walk root (pointerSteps (pointerOf reference))

/-! ## Following references -/

/-- The schemas that references of a document name. A value is smaller than
the one before it wherever a document comes back to one of its references, so
the number of steps has a bound; behind it every value passes. -/
def resolver (dialect : Dialect) (root : Json) : Nat → String → Check
  | 0, _ => Check.pass
  | n + 1, reference => fun v =>
    match target? root reference with
    | some schema => meaning ⟨dialect, resolver dialect root n⟩ schema v
    | none => {}

mutual

/-- The number of references in a document. -/
def countReferences : Json → Nat
  | .object members => countMemberReferences members
  | .array items => countItemReferences items
  | _ => 0

/-- The number of references in the members. -/
def countMemberReferences : List (String × Json) → Nat
  | [] => 0
  | (key, v) :: rest =>
    (if key = "$ref" then 1 else 0) + countReferences v + countMemberReferences rest

/-- The number of references in the items. -/
def countItemReferences : List Json → Nat
  | [] => 0
  | v :: rest => countReferences v + countItemReferences rest

end

/-- How many references can be followed in a row before one of them comes
back with the same value. -/
def referenceBound (document v : Json) : Nat := (countReferences document + 1) * (v.depth + 2)

/-- What a document says about a value. -/
def judge (dialect : Dialect) (document v : Json) : Report :=
  meaning ⟨dialect, resolver dialect document (referenceBound document v)⟩ document v

end GuardedCall.Schema
