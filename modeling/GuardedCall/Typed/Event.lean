-- A type of four variants: one without content, one with a text, one with
-- two numbers by place and one with two numbers by name.
import GuardedCall.Typed.Basic

namespace GuardedCall.Typed

open GuardedCall.Json

/-- Something that happens. -/
inductive Event where
  | ping
  | say (text : String)
  | line (x y : I64)
  | move (x y : I64)
deriving DecidableEq

namespace Event

def names : List String := ["ping", "say", "line", "move"]

def numbersByPlace (origin : Origin) (expected : String) (items : List Written)
    (ending : Option ReadFault) (stop : Nat) : Except DecodeFault (I64 × I64) := do
  let (x, s) ← Items.take ⟨0, items, ending, stop⟩ expected
  let x ← i64.decode origin x
  let (y, s) ← s.take expected
  let y ← i64.decode origin y
  s.finish origin
  return (x, y)

/-- The numbers of a line. In a value that was read before, anything but an
array is refused without a look at the variant. -/
def lineNumbers (origin : Origin) (w : Written) : Except DecodeFault (I64 × I64) :=
  let expected := "tuple variant Event::Line"
  match w, origin with
  | .array _ [] none, .value => .error ⟨.wrongType .null expected, none⟩
  | .array span items ending, _ =>
    numbersByPlace origin (expected ++ " with 2 elements") items ending span.stop
  | w, .value => .error (mismatch w "tuple variant")
  | w, _ => .error (mismatch w expected)

/-- The fields of a move that were read so far. -/
structure Slots where
  x : Option I64 := none
  y : Option I64 := none

/-- One member of a move; one of another name is skipped. -/
def step (origin : Origin) (s : Slots) (key : Key) (w : Written) : Except DecodeFault Slots := do
  if key.name = "x" then return { s with x := ← once s.x key (i64.decode origin w) }
  else if key.name = "y" then return { s with y := ← once s.y key (i64.decode origin w) }
  else do
    skip w
    return s

/-- The numbers of a move. A text may give them in an array. -/
def moveNumbers (origin : Origin) (w : Written) : Except DecodeFault (I64 × I64) :=
  let expected := "struct variant Event::Move"
  match w, origin with
  | .object span members ending, _ => do
    let s ← visit (step origin) {} members ending
    return (← required s.x "x" span.stop, ← required s.y "y" span.stop)
  | w, .value => .error (mismatch w "struct variant")
  | .array span items ending, _ =>
    numbersByPlace origin (expected ++ " with 2 elements") items ending span.stop
  | w, _ => .error (mismatch w expected)

def ofVariant (origin : Origin) (v : Variant) : Except DecodeFault Event := do
  if v.name = "ping" then
    v.unit origin
    return .ping
  else if v.name = "say" then
    return .say (← string.decode origin (← v.payload "newtype variant"))
  else if v.name = "line" then
    let (x, y) ← lineNumbers origin (← v.payload "tuple variant")
    return .line x y
  else
    let (x, y) ← moveNumbers origin (← v.payload "struct variant")
    return .move x y

/-- An event as JSON: its name, or an object with its content under its name. -/
def encode : Event → Except EncodeFault Json
  | .ping => .ok (.string "ping")
  | .say text => .ok (.object [("say", .string text)])
  | .line x y => .ok (.object [("line", .array [Json.whole x.val, Json.whole y.val])])
  | .move x y =>
    .ok (.object [("move", .object [("x", Json.whole x.val), ("y", Json.whole y.val)])])

end Event

def event : Codec Event where
  name := "Event"
  decode origin w := do
    let v ← Variant.read origin Event.names w
    let e ← Event.ofVariant origin v
    Variant.finish origin w
    return e
  encode := Event.encode

end GuardedCall.Typed
