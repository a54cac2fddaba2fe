-- Three record types: a pair of numbers, read with or without room for other
-- members, and a profile with a part that may be left out.
import GuardedCall.Typed.Basic

namespace GuardedCall.Typed

open GuardedCall.Json

/-! ## Pairs -/

/-- Two numbers by name. -/
structure Pair where
  a : Double
  b : Double
deriving DecidableEq

namespace Pair

/-- The fields that were read so far. -/
structure Slots where
  a : Option Double := none
  b : Option Double := none

/-- One member. A member of another name is refused when the pair is strict
and skipped when it is not. -/
def step (strict : Bool) (origin : Origin) (s : Slots) (key : Key) (w : Written) :
    Except DecodeFault Slots := do
  if key.name = "a" then return { s with a := ← once s.a key (f64.decode origin w) }
  else if key.name = "b" then return { s with b := ← once s.b key (f64.decode origin w) }
  else if strict then throw ⟨.unknownField key.name ["a", "b"], some key.stop⟩
  else do
    skip w
    return s

/-- A pair out of an object, or out of an array of its two numbers. -/
def decode (strict : Bool) (name : String) (origin : Origin) (w : Written) :
    Except DecodeFault Pair :=
  match w with
  | .object span members ending => do
    let s ← visit (step strict origin) {} members ending
    return ⟨← required s.a "a" span.stop, ← required s.b "b" span.stop⟩
  | .array span items ending => do
    let expected := "struct " ++ name ++ " with 2 elements"
    let (a, s) ← Items.take ⟨0, items, ending, span.stop⟩ expected
    let a ← f64.decode origin a
    let (b, s) ← s.take expected
    let b ← f64.decode origin b
    s.finish origin
    return ⟨a, b⟩
  | w => .error (mismatch w ("struct " ++ name))

def encode (p : Pair) : Except EncodeFault Json :=
  .ok (.object [("a", Json.ofDouble p.a), ("b", Json.ofDouble p.b)])

end Pair

/-- A pair beside which other members are skipped. -/
def openPair : Codec Pair where
  name := "Pair"
  decode := Pair.decode false "Pair"
  encode := Pair.encode

/-- A pair beside which no other member may stand. -/
def strictPair : Codec Pair where
  name := "StrictPair"
  decode := Pair.decode true "StrictPair"
  encode := Pair.encode

/-! ## Profiles -/

/-- A name, a nickname that may be missing, and tags. -/
structure Profile where
  name : String
  nickname : Option String
  tags : List String
deriving DecidableEq

namespace Profile

/-- The fields that were read so far. -/
structure Slots where
  name : Option String := none
  nickname : Option (Option String) := none
  tags : Option (List String) := none

/-- One member; one of another name is skipped. -/
def step (origin : Origin) (s : Slots) (key : Key) (w : Written) : Except DecodeFault Slots := do
  if key.name = "name" then
    return { s with name := ← once s.name key (string.decode origin w) }
  else if key.name = "nickname" then
    return { s with nickname := ← once s.nickname key ((optional string).decode origin w) }
  else if key.name = "tags" then
    return { s with tags := ← once s.tags key ((list string).decode origin w) }
  else do
    skip w
    return s

/-- The nickname at the next place of an array, where a missing one is none. -/
def nicknameItem (origin : Origin) (s : Items) : Except DecodeFault (Option String × Items) := do
  match ← s.next with
  | (some w, s) => return (← (optional string).decode origin w, s)
  | (none, s) => return (none, { s with taken := s.taken + 1 })

/-- A profile out of an object, or out of an array of its parts. -/
def decode (origin : Origin) (w : Written) : Except DecodeFault Profile :=
  match w with
  | .object span members ending => do
    let s ← visit (step origin) {} members ending
    let name ← required s.name "name" span.stop
    let tags ← required s.tags "tags" span.stop
    return ⟨name, s.nickname.getD none, tags⟩
  | .array span items ending => do
    let expected := "struct Profile with 3 elements"
    let (name, s) ← Items.take ⟨0, items, ending, span.stop⟩ expected
    let name ← string.decode origin name
    let (nickname, s) ← nicknameItem origin s
    let (tags, s) ← s.take expected
    let tags ← (list string).decode origin tags
    s.finish origin
    return ⟨name, nickname, tags⟩
  | w => .error (mismatch w "struct Profile")

/-- A profile as an object with all its fields. -/
def encode (p : Profile) : Except EncodeFault Json := do
  return .object [("name", .string p.name), ("nickname", ← (optional string).encode p.nickname),
    ("tags", ← (list string).encode p.tags)]

end Profile

def profile : Codec Profile where
  name := "Profile"
  decode := Profile.decode
  encode := Profile.encode

end GuardedCall.Typed
