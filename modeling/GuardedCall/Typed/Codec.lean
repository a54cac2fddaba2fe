-- Codecs: how the values of a type are written as JSON and read back.
-- Reading works on a text as it is written, so that one definition serves a
-- value that was read before and a text that is read now; the two differ in
-- the wording of a few faults.
import GuardedCall.Json.Reader
import GuardedCall.Typed.Fault

namespace GuardedCall.Typed

open GuardedCall.Json

/-- Where a value that is decoded comes from. -/
inductive Origin where
  /-- A JSON value. -/
  | value
  /-- A text that is being read. -/
  | text
  /-- A part of a tagged value that was set aside until its tag was known. -/
  | buffered
deriving DecidableEq

/-- How the values of a type are read from JSON and written as JSON. -/
structure Codec (α : Type) where
  /-- The name of the type. -/
  name : String
  decode : Origin → Written → Except DecodeFault α
  encode : α → Except EncodeFault Json

namespace Codec

variable {α : Type}

def decodeJson (c : Codec α) (v : Json) : Except DecodeFault α :=
  c.decode .value (Written.ofJson v)

/-- Reads a text. What stands behind the value is a fault of the text. -/
def readText (c : Codec α) (text : List Char) : Except DecodeFault α := do
  let d := readDocument depthLimit text
  let x ← c.decode .text d.written
  match d.trailing with
  | none => return x
  | some f => throw (.ofRead f)

end Codec

/-! ## Faults of a place -/

/-- The fault of something that has another type than was expected. -/
def mismatch (w : Written) (expected : String) : DecodeFault :=
  match w with
  | .scalar span s => ⟨.wrongType (Found.ofScalar s) expected, some span.stop⟩
  | .tooLarge _ n => .ofRead ⟨.numberTooLarge, n⟩
  | .array span _ _ => ⟨.wrongType .sequence expected, some span.start⟩
  | .object span _ _ => ⟨.wrongType .map expected, some span.start⟩
  | .broken _ f => .ofRead f

/-- The fault that ended an array or an object, if one did. -/
def ended (ending : Option ReadFault) : Except DecodeFault Unit :=
  match ending with
  | none => .ok ()
  | some f => .error (.ofRead f)

mutual

/-- A part that nobody asks for is only read to its end. A number may be too
large there. -/
def skip : Written → Except DecodeFault Unit
  | .scalar _ _ | .tooLarge _ _ => .ok ()
  | .array _ items ending => do skipItems items; ended ending
  | .object _ members ending => do skipMembers members; ended ending
  | .broken _ f => .error (.ofRead f)

def skipItems : List Written → Except DecodeFault Unit
  | [] => .ok ()
  | w :: rest => do skip w; skipItems rest

def skipMembers : List (Key × Written) → Except DecodeFault Unit
  | [] => .ok ()
  | (_, w) :: rest => do skip w; skipMembers rest

end

/-! ## Items by place -/

/-- The items of an array that are still to come. -/
structure Items where
  /-- How many were taken. -/
  taken : Nat
  rest : List Written
  ending : Option ReadFault
  stop : Nat

namespace Items

/-- The next item, if there is one. -/
def next (s : Items) : Except DecodeFault (Option Written × Items) :=
  match s.rest with
  | w :: rest => .ok (some w, { s with taken := s.taken + 1, rest })
  | [] =>
    match s.ending with
    | none => .ok (none, s)
    | some f => .error (.ofRead f)

/-- The next item, which must be there. -/
def take (s : Items) (expected : String) : Except DecodeFault (Written × Items) := do
  match ← s.next with
  | (some w, s) => return (w, s)
  | (none, s) => throw ⟨.wrongLength s.taken expected, some s.stop⟩

def finish (origin : Origin) (s : Items) : Except DecodeFault Unit :=
  match s.rest with
  | w :: rest =>
    let total := s.taken + rest.length + 1
    match origin with
    | .text => .error (.ofRead ⟨.trailingText, w.start + 1⟩)
    | .value => .error ⟨.wrongLength total "fewer elements in array", none⟩
    | .buffered =>
      let expected := toString s.taken ++ (if s.taken = 1 then " element" else " elements") ++ " in sequence"
      .error ⟨.wrongLength total expected, none⟩
  | [] =>
    match s.ending with
    | none => .ok ()
    | some f =>
      if f.cause = .expectedListEnd then .error (.ofRead ⟨.trailingText, f.offset⟩)
      else .error (.ofRead f)

end Items

/-! ## Members by name -/

/-- Goes through the members in the order of the text. -/
def visit {σ : Type} (step : σ → Key → Written → Except DecodeFault σ) (init : σ)
    (members : List (Key × Written)) (ending : Option ReadFault) : Except DecodeFault σ := do
  let s ← members.foldlM (fun s m => step s m.1 m.2) init
  ended ending
  return s

/-- The value of a field that no earlier member gave. -/
def once {α : Type} (slot : Option α) (key : Key) (value : Except DecodeFault α) :
    Except DecodeFault (Option α) :=
  if slot.isSome then .error ⟨.duplicateField key.name, some key.stop⟩ else value.map some

/-- The value of a field that must be there. -/
def required {α : Type} (slot : Option α) (name : String) (stop : Nat) : Except DecodeFault α :=
  match slot with
  | some x => .ok x
  | none => .error ⟨.missingField name, some stop⟩

/-! ## Variants -/

/-- The name of a variant and what stands behind it, if anything does. -/
structure Variant where
  name : String
  content : Option Written

/-- A name that is one of the known names. -/
def known (names : List String) (name : String) (stop : Nat) : Except DecodeFault Unit :=
  if name ∈ names then .ok () else .error ⟨.unknownVariant name names, some stop⟩

def inString : ReadCause → Bool
  | .endInString | .badEscape | .unfinishedPair | .loneHalf | .controlCharacter => true
  | _ => false

/-- A fault in front of the value, behind a key. -/
def inFront : ReadCause → Bool
  | .endInObject | .expectedColon => true
  | _ => false

/-- The variant of a string, or of an object with one member. -/
def Variant.read (origin : Origin) (names : List String) (w : Written) :
    Except DecodeFault Variant :=
  match w, origin with
  | .scalar span (.string s), _ => do
    known names s span.stop
    return ⟨s, none⟩
  | .object span members ending, .text =>
    match members, ending with
    | [], none => .error (.ofRead ⟨.expectedValue, span.stop⟩)
    | [], some f => .error (.ofRead f)
    | (key, content) :: _, _ => do
      known names key.name key.stop
      return ⟨key.name, some content⟩
  | .object _ [(key, content)] _, _ => do
    known names key.name key.stop
    return ⟨key.name, some content⟩
  | .object _ _ _, _ => .error ⟨.wrongValue .map "map with a single key", none⟩
  | .broken start f, .text =>
    if inString f.cause || inFront f.cause || f == ⟨.endInValue, start⟩ then .error (.ofRead f)
    else .error (.ofRead ⟨.expectedValue, start + 1⟩)
  | w, .text => .error (.ofRead ⟨.expectedValue, w.start + 1⟩)
  | w, _ => .error (mismatch w "string or map")

/-- Behind the member of a variant its object must end. -/
def Variant.finish (origin : Origin) (w : Written) : Except DecodeFault Unit :=
  match origin, w with
  | .text, .object _ ((key, _) :: more) ending =>
    match more, ending with
    | [], none => .ok ()
    | [], some f =>
      if f.cause = .endInObject then .error (.ofRead f)
      else .error (.ofRead ⟨.expectedValue, key.after⟩)
    | _, _ => .error (.ofRead ⟨.expectedValue, key.after⟩)
  | _, _ => .ok ()

/-- A variant without content may still be given with `null`, and in a part
that was set aside also with an empty object. -/
def Variant.unit (origin : Origin) (v : Variant) : Except DecodeFault Unit :=
  match v.content, origin with
  | none, _ => .ok ()
  | some (.scalar _ .null), _ => .ok ()
  | some (.object _ [] none), .buffered => .ok ()
  | some w, _ => .error (mismatch w "unit")

/-- The content of a variant that has one. -/
def Variant.payload (v : Variant) (shape : String) : Except DecodeFault Written :=
  match v.content with
  | some w => .ok w
  | none => .error ⟨.wrongType .unitVariant shape, none⟩

/-- A type whose values are names: the codec of a list of names, in the order
in which messages list them. -/
def named {α : Type} (name : String) (values : List (String × α)) (nameOf : α → String) : Codec α where
  name
  decode origin w := do
    let v ← Variant.read origin (values.map Prod.fst) w
    v.unit origin
    Variant.finish origin w
    match values.lookup v.name with
    | some x => return x
    | none => throw ⟨.unknownVariant v.name (values.map Prod.fst), none⟩
  encode x := .ok (.string (nameOf x))

end GuardedCall.Typed
