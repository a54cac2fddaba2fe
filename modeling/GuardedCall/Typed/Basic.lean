-- The codecs of the simple types.
import GuardedCall.Typed.Codec

namespace GuardedCall.Typed

open GuardedCall.Json

def json : Codec Json where
  name := "serde_json::value::Value"
  decode _ w := w.toJson.mapError DecodeFault.ofRead
  encode v := .ok v

/-- The type with one value, which is written `null`. -/
def unit : Codec Unit where
  name := "()"
  decode _ w :=
    match w with
    | .scalar _ .null => .ok ()
    | w => .error (mismatch w "unit")
  encode _ := .ok .null

def bool : Codec Bool where
  name := "bool"
  decode _ w :=
    match w with
    | .scalar _ (.bool b) => .ok b
    | w => .error (mismatch w "a boolean")
  encode b := .ok (.bool b)

/-! ## Numbers -/

/-- The whole numbers from `lo` to `hi`. -/
abbrev Ranged (lo hi : Int) := { n : Int // lo ≤ n ∧ n ≤ hi }

/-- A whole number that lies in the range. -/
def Ranged.ofInt? (lo hi n : Int) : Option (Ranged lo hi) :=
  if h : lo ≤ n ∧ n ≤ hi then some ⟨n, h⟩ else none

/-- A range of whole numbers. A double is never one of them. -/
def ranged (name : String) (lo hi : Int) : Codec (Ranged lo hi) where
  name
  decode _ w :=
    match w with
    | .scalar span (.number (.whole n)) =>
      match Ranged.ofInt? lo hi n with
      | some x => .ok x
      | none => .error ⟨.wrongValue (.number (.whole n)) name, some span.stop⟩
    | w => .error (mismatch w name)
  encode x := .ok (Json.whole x.val)

abbrev U8 := Ranged 0 255
abbrev U16 := Ranged 0 65535
abbrev U32 := Ranged 0 4294967295
abbrev U64 := Ranged 0 18446744073709551615
abbrev I32 := Ranged (-2147483648) 2147483647
abbrev I64 := Ranged (-9223372036854775808) 9223372036854775807

def u8 : Codec U8 := ranged "u8" 0 255
def u16 : Codec U16 := ranged "u16" 0 65535
def u32 : Codec U32 := ranged "u32" 0 4294967295
def u64 : Codec U64 := ranged "u64" 0 18446744073709551615
def i32 : Codec I32 := ranged "i32" (-2147483648) 2147483647
def i64 : Codec I64 := ranged "i64" (-9223372036854775808) 9223372036854775807

/-- Doubles. A whole number becomes the nearest one. -/
def f64 : Codec Double where
  name := "f64"
  decode _ w :=
    match w with
    | .scalar _ (.number n) => .ok n.toDouble
    | w => .error (mismatch w "f64")
  encode x := .ok (Json.ofDouble x)

/-! ## Texts -/

def char : Codec Char where
  name := "char"
  decode _ w :=
    match w with
    | .scalar span (.string s) =>
      match s.toList with
      | [c] => .ok c
      | _ => .error ⟨.wrongValue (.string s) "a character", some span.stop⟩
    | w => .error (mismatch w "a character")
  encode c := .ok (.string (String.ofList [c]))

def string : Codec String where
  name := "alloc::string::String"
  decode _ w :=
    match w with
    | .scalar _ (.string s) => .ok s
    | w => .error (mismatch w "a string")
  encode s := .ok (.string s)

/-! ## Lists, pairs and optional values -/

/-- The list of the items of an array. -/
def list {α : Type} (c : Codec α) : Codec (List α) where
  name := "alloc::vec::Vec<" ++ c.name ++ ">"
  decode origin w :=
    match w with
    | .array _ items ending => do
      let xs ← items.mapM (c.decode origin)
      ended ending
      return xs
    | w => .error (mismatch w "a sequence")
  encode xs := return .array (← xs.mapM c.encode)

def pair {α β : Type} (a : Codec α) (b : Codec β) : Codec (α × β) where
  name := "(" ++ a.name ++ ", " ++ b.name ++ ")"
  decode origin w :=
    match w with
    | .array span items ending => do
      let expected := "a tuple of size 2"
      let (x, s) ← Items.take ⟨0, items, ending, span.stop⟩ expected
      let x ← a.decode origin x
      let (y, s) ← s.take expected
      let y ← b.decode origin y
      s.finish origin
      return (x, y)
    | w => .error (mismatch w "a tuple of size 2")
  encode p := return .array [← a.encode p.1, ← b.encode p.2]

def optional {α : Type} (c : Codec α) : Codec (Option α) where
  name := "core::option::Option<" ++ c.name ++ ">"
  decode origin w :=
    match w with
    | .scalar _ .null => .ok none
    | w => (c.decode origin w).map some
  encode
    | none => .ok .null
    | some x => c.encode x

/-- A table: the members of an object. Of two members with one key the later
one counts. -/
def table {α : Type} (c : Codec α) : Codec (Table α) where
  name := "alloc::collections::btree::map::BTreeMap<" ++ string.name ++ ", " ++ c.name ++ ">"
  decode origin w :=
    match w with
    | .object _ members ending =>
      visit (fun t key w => return Table.insert t key.name (← c.decode origin w)) [] members ending
    | w => .error (mismatch w "a map")
  encode t := return .object (← t.mapM fun p => return (p.1, ← c.encode p.2))

end GuardedCall.Typed
