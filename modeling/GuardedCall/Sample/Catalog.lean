-- The samples by name.
import GuardedCall.Sample.Basic

namespace GuardedCall

open GuardedCall.Typed

namespace Sample

/-! ## On JSON values -/

/-- The member of an object under a name, or `null`. -/
def field (name v : Json) : Json :=
  match name with
  | .string key => (v.member? key).getD .null
  | _ => .null

def failure (message : Option Json) : String :=
  match message with
  | some (.string m) => m
  | _ => "failed"

/-- The number of a member, or zero. -/
def numberOf (v : Json) (key : String) : Double :=
  match v.member? key with
  | some (.number n) => n.toDouble
  | _ => Double.zero

/-- The sum of the members `a` and `b`, as far as they are numbers. -/
def looseSum (v : Json) : Json := Json.ofDouble ((numberOf v "a").add (numberOf v "b"))

/-! ## On numbers -/

def one : Double := Double.ofInt 1

/-- The number, or a failure if it is out of range. -/
def inRange {lo hi : Int} (message : String) (n : Int) : Except String (Ranged lo hi) :=
  match Ranged.ofInt? lo hi n with
  | some x => .ok x
  | none => .error message

/-- The quotient, rounded toward zero. -/
def divide (p : I64 × I64) : Except String I64 :=
  if p.2.val = 0 then .error "division by zero" else inRange "overflow" (p.1.val.tdiv p.2.val)

/-- One more digit of a number of sixteen bits. -/
def nextDigit (n : Nat) (c : Char) : Except String Nat :=
  if !c.isDigit then .error "invalid digit found in string"
  else
    let m := 10 * n + (c.toNat - '0'.toNat)
    if m < 65536 then .ok m else .error "number too large to fit in target type"

/-- A number of sixteen bits out of its digits, with a plus sign or without. -/
def parseU16 (s : String) : Except String U16 := do
  let digits ← match s.toList with
    | [] => .error "cannot parse integer from empty string"
    | '+' :: c :: rest => .ok (c :: rest)
    | cs => .ok cs
  let n ← digits.foldlM nextDigit 0
  inRange "number too large to fit in target type" n

/-- A double, also one that JSON has no form for. -/
def doubleArgument (v : Json) : Except DecodeFault Double :=
  match v with
  | .string "NaN" => .ok Double.undefined
  | .string "inf" => .ok Double.infinity
  | .string "-inf" => .ok (Double.ofMagnitude true Double.infinityBits)
  | v => f64.decodeJson v

def onDoubles (f : Double → Double) : Sample :=
  .typed { SampleFunction.ofTotal f64 f64 f with argument := doubleArgument }

/-! ## On grids -/

/-- A grid out of places and numbers, three by three. -/
def gridArgument (v : Json) : Except DecodeFault Grid := do
  let rows ← (list (list i32)).decodeJson v
  return rows.foldl
    (fun g row =>
      match row with
      | [x, y, n] => g.put (x, y) n
      | _ => g)
    []

/-- The grid with one number at the place of that number on both axes, or the
empty one for a negative number. -/
def diagonal (n : I32) : Grid := if n.val < 0 then [] else [((n, n), n)]

/-! ## The catalog -/

/-- The sample of a name. Some of them have a parameter. -/
def named? (name : String) (parameter : Option Json) : Option Sample :=
  match name with
  | "echo" => some (.untyped .ok)
  | "wrap" => some (.untyped fun v => .ok (.object [("got", v)]))
  | "const" => some (.untyped fun _ => .ok (parameter.getD .null))
  | "field" => some (.untyped fun v => .ok (field (parameter.getD .null) v))
  | "fail" => some (.untyped fun _ => .error (failure parameter))
  | "loose_add" => some (.untyped fun v => .ok (looseSum v))
  | "add" => some (.typed (.ofTotal openPair f64 fun p => p.a.add p.b))
  | "add2" => some (.typed (.ofTotal (pair f64 f64) f64 fun p => p.1.add p.2))
  | "recip" => some (onDoubles fun x => one.div x)
  | "inc" => some (onDoubles fun x => x.add one)
  | "div" => some (.typed (.ofRun (pair i64 i64) i64 divide))
  | "bump" => some (.typed (.ofRun u8 u8 fun n => inRange "counter overflow" (n.val + 1)))
  | "len" => some (.typed (.ofRun string u64 fun s => inRange "overflow" s.utf8ByteSize))
  | "parse_u16" => some (.typed (.ofRun string u16 parseU16))
  | "repeat" =>
    some (.typed (.ofTotal u32 string fun n =>
      String.ofList (List.replicate (min n.val.toNat 200) 'x')))
  | "reverse" => some (.typed (.ofTotal (list string) (list string) List.reverse))
  | "grid" => some (.typed (.ofTotal i32 gridCodec diagonal))
  | "total" =>
    some (.typed
      { SampleFunction.ofRun gridCodec i32 (fun g => inRange "overflow" g.total) with
        argument := gridArgument })
  | "profile" => some (.typed (.ofTotal Typed.profile Typed.profile id))
  | "event" => some (.typed (.ofTotal Typed.event Typed.event id))
  | "maybe" => some (.typed (.ofTotal (optional string) (optional string) id))
  | "pong" => some (.typed (.ofTotal unit string fun _ => "pong"))
  | _ => none

end Sample

end GuardedCall
