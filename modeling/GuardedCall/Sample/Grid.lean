-- Grids: numbers by pairs of numbers. A grid has no JSON form unless it is
-- empty, since the keys of an object are strings.
import GuardedCall.Typed.Basic

namespace GuardedCall

open GuardedCall.Json
open GuardedCall.Typed

/-- Numbers by place. -/
abbrev Grid := List ((I32 × I32) × I32)

namespace Grid

/-- The grid with a number put at a place, in place of an earlier one. -/
def put (g : Grid) (place : I32 × I32) (n : I32) : Grid :=
  g.filter (fun p => p.1 ≠ place) ++ [(place, n)]

/-- The sum of the numbers, as thirty-two bits hold it. -/
def total (g : Grid) : Int := (g.foldl (fun (n : Int) (p : (I32 × I32) × I32) => n + p.2.val) 0).bmod 4294967296

/-- A grid out of an object. It can have no members, since the key of a member
is no pair. -/
def decode (w : Written) : Except DecodeFault Grid :=
  match w with
  | .object _ [] ending => do
    ended ending
    return []
  | .object _ ((key, _) :: _) _ =>
    .error ⟨.wrongType (.string key.name) "a tuple of size 2", some key.stop⟩
  | w => .error (mismatch w "a map")

end Grid

def gridCodec : Codec Grid where
  name := "Grid"
  decode _ := Grid.decode
  encode g := if g.isEmpty then .ok (.object []) else .error .keyNotString

end GuardedCall
