-- The shape of a router: names, levels, and the kind and adapter of every
-- procedure, without the procedures themselves. It has a JSON form, so that
-- clients elsewhere can be made from it.
import GuardedCall.Router.Basic
import GuardedCall.Typed.Basic

namespace GuardedCall

open GuardedCall.Json
open GuardedCall.Typed

/-- What a shape tells about a procedure. -/
structure ProcedureShape where
  kind : ProcedureKind
  adapter : String
deriving DecidableEq

/-- An entry of a shape. -/
abbrev ShapeNode := Tree ProcedureShape String

/-- The shape of a router. -/
structure RouterShape where
  defaultAdapter : String
  entries : Table ShapeNode

namespace RouterShape

/-- A shape as an entry of another one. -/
def node (s : RouterShape) : ShapeNode := .level s.defaultAdapter s.entries

def lookup (s : RouterShape) (path : String) : Option ShapeNode :=
  s.node.find? (Path.segments path)

end RouterShape

/-- What the shape of a router tells about a procedure. -/
def Endpoint.shape {σ : Type} (e : Endpoint σ) : ProcedureShape := ⟨e.kind, e.adapter⟩

def Router.shape {σ : Type} (r : Router σ) : RouterShape :=
  ⟨r.defaultAdapter, Tree.mapEntries (fun _ e => e.shape) id "" r.entries⟩

/-! ## Writing -/

namespace ShapeNode

mutual

/-- An entry as JSON, with a tag that tells what it is. -/
def toJson : Tree ProcedureShape String → Json
  | .leaf p =>
    .object [("adapter", .string p.adapter), ("kind", .string p.kind.name),
      ("type", .string "procedure")]
  | .level label entries =>
    .object [("default_adapter", .string label), ("entries", .object (entriesToJson entries)),
      ("type", .string "router")]

/-- Entries as the members of an object. -/
def entriesToJson : List (String × Tree ProcedureShape String) → List (String × Json)
  | [] => []
  | (name, t) :: rest => (name, toJson t) :: entriesToJson rest

end

end ShapeNode

def RouterShape.toJson (s : RouterShape) : Json :=
  .object [("default_adapter", .string s.defaultAdapter),
    ("entries", .object (ShapeNode.entriesToJson s.entries))]

/-! ## Reading -/

namespace ShapeNode

/-- The tags of the two kinds of entry. -/
def tags : List String := ["procedure", "router"]

/-- The tag of an entry. One inside an entry that was set aside may also be a
number. -/
def readTag (origin : Origin) (w : Written) : Except DecodeFault String :=
  match w, origin with
  | .scalar span (.string s), _ => do
    known tags s span.stop
    return s
  | .scalar _ (.number (.whole 0)), .buffered => .ok "procedure"
  | .scalar _ (.number (.whole 1)), .buffered => .ok "router"
  | .scalar _ (.number (.whole n)), .buffered =>
    if 0 ≤ n then .error ⟨.wrongValue (.number (.whole n)) "variant index 0 <= i < 2", none⟩
    else .error (mismatch w "variant identifier")
  | w, _ => .error (mismatch w "variant identifier")

/-- A part that is set aside has to be readable. -/
def setAside (w : Written) : Except DecodeFault Unit := do
  let _ ← w.toJson.mapError DecodeFault.ofRead
  return ()

/-- The tag among the members of an object, the other members set aside. -/
def findTag (origin : Origin) : List (Key × Written) → Option String →
    Except DecodeFault (Option String)
  | [], found => .ok found
  | (key, w) :: rest, found => do
    if key.name = "type" then
      if found.isSome then throw ⟨.duplicateField "type", some key.stop⟩
      findTag origin rest (some (← readTag origin w))
    else do
      setAside w
      findTag origin rest found

/-- The fields of a procedure that were read so far. -/
structure ProcedureSlots where
  kind : Option ProcedureKind := none
  adapter : Option String := none

/-- One member of a procedure; one of another name is skipped. -/
def procedureStep (s : ProcedureSlots) (key : Key) (w : Written) :
    Except DecodeFault ProcedureSlots := do
  if key.name = "kind" then
    return { s with kind := ← once s.kind key (procedureKindCodec.decode .buffered w) }
  else if key.name = "adapter" then
    return { s with adapter := ← once s.adapter key (Typed.string.decode .buffered w) }
  else do
    skip w
    return s

/-- A procedure out of the members of its object. -/
def procedureByName (members : List (Key × Written)) : Except DecodeFault ProcedureShape := do
  let s ← visit procedureStep {} members none
  return ⟨← required s.kind "kind" 0, ← required s.adapter "adapter" 0⟩

/-- A procedure out of the items behind its tag. -/
def procedureByPlace (items : List Written) : Except DecodeFault ProcedureShape := do
  let expected := "struct variant ShapeNode::Procedure with 2 elements"
  let (kind, s) ← Items.take ⟨0, items, none, 0⟩ expected
  let kind ← procedureKindCodec.decode .buffered kind
  let (adapter, s) ← s.take expected
  let adapter ← Typed.string.decode .buffered adapter
  s.finish .buffered
  return ⟨kind, adapter⟩

/-- The fields of a router that were read so far. -/
structure RouterSlots where
  defaultAdapter : Option String := none
  entries : Option (Table (Tree ProcedureShape String)) := none

/-- What a router has to have as an array. -/
def routerItems : String := "struct RouterShape with 2 elements"

mutual

/-- An entry: its tag, and then what the tag asks for. -/
def decode (origin : Origin) : Written → Except DecodeFault (Tree ProcedureShape String)
  | .object span members ending => do
    let tag ← findTag origin members none
    ended ending
    let tag ← required tag "type" span.stop
    if tag = "procedure" then return .leaf (← procedureByName members)
    else do
      let s ← routerMembers .buffered members {}
      return .level (← required s.defaultAdapter "default_adapter" span.stop)
        (← required s.entries "entries" span.stop)
  | .array span [] ending => do
    ended ending
    throw ⟨.missingField "type", some span.stop⟩
  | .array span (w :: rest) ending => do
    let tag ← readTag origin w
    rest.forM setAside
    ended ending
    if tag = "procedure" then return .leaf (← procedureByPlace rest)
    else do
      let (label, entries) ← routerByPlace .buffered span.stop none rest
      return .level label entries
  | w => .error (mismatch w "internally tagged enum ShapeNode")

/-- The members of a router; those of other names are skipped. -/
def routerMembers (origin : Origin) :
    List (Key × Written) → RouterSlots → Except DecodeFault RouterSlots
  | [], s => .ok s
  | (key, w) :: rest, s => do
    if key.name = "default_adapter" then
      routerMembers origin rest
        { s with defaultAdapter := ← once s.defaultAdapter key (Typed.string.decode origin w) }
    else if key.name = "entries" then
      routerMembers origin rest { s with entries := ← once s.entries key (decodeEntries origin w) }
    else do
      skip w
      routerMembers origin rest s

/-- The parts of a router by their places. -/
def routerByPlace (origin : Origin) (stop : Nat) (ending : Option ReadFault) :
    List Written → Except DecodeFault (String × Table (Tree ProcedureShape String))
  | [] => do
    ended ending
    throw ⟨.wrongLength 0 routerItems, some stop⟩
  | [label] => do
    let _ ← Typed.string.decode origin label
    ended ending
    throw ⟨.wrongLength 1 routerItems, some stop⟩
  | label :: entries :: rest => do
    let label ← Typed.string.decode origin label
    let entries ← decodeEntries origin entries
    Items.finish origin ⟨2, rest, ending, stop⟩
    return (label, entries)

def decodeEntries (origin : Origin) :
    Written → Except DecodeFault (Table (Tree ProcedureShape String))
  | .object _ members ending => do
    let t ← entryMembers origin members []
    ended ending
    return t
  | w => .error (mismatch w "a map")

/-- Puts the members of an object into a table one by one. -/
def entryMembers (origin : Origin) :
    List (Key × Written) → Table (Tree ProcedureShape String) →
      Except DecodeFault (Table (Tree ProcedureShape String))
  | [], t => .ok t
  | (key, w) :: rest, t => do
    let node ← decode origin w
    entryMembers origin rest (t.insert key.name node)

end

end ShapeNode

/-- A shape out of an object, or out of an array of its two parts. -/
def RouterShape.decode (origin : Origin) (w : Written) : Except DecodeFault RouterShape :=
  match w with
  | .object span members ending => do
    let s ← ShapeNode.routerMembers origin members {}
    ended ending
    return ⟨← required s.defaultAdapter "default_adapter" span.stop,
      ← required s.entries "entries" span.stop⟩
  | .array span items ending => do
    let (label, entries) ← ShapeNode.routerByPlace origin span.stop ending items
    return ⟨label, entries⟩
  | w => .error (mismatch w "struct RouterShape")

def routerShapeCodec : Codec RouterShape where
  name := "RouterShape"
  decode := RouterShape.decode
  encode s := .ok s.toJson

end GuardedCall
