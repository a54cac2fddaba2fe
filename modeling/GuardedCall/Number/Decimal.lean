-- The fewest decimal digits that name a double, and how digits and an
-- exponent are laid out as a text.
import GuardedCall.Number.Double

namespace GuardedCall

/-! ## Digits -/

/-- The number `digits * 10 ^ exponent`. -/
structure Decimal where
  digits : Nat
  exponent : Int
deriving DecidableEq

namespace Decimal

/-- The same number without zeros at the end of its digits, where `fuel`
bounds the zeros that are dropped. -/
def dropZeros : Nat → Decimal → Decimal
  | 0, d => d
  | fuel + 1, d =>
    if d.digits ≠ 0 ∧ d.digits % 10 = 0 then
      dropZeros fuel ⟨d.digits / 10, d.exponent + 1⟩
    else d

/-- The same number with the fewest digits. -/
def trimmed (d : Decimal) : Decimal := dropZeros (Double.digitCount d.digits) d

/-- The magnitude of a finite double, all its digits written out. -/
def exact (x : Double) : Decimal :=
  if 0 ≤ x.scale then ⟨x.significand * Nat.pow 2 x.scale.toNat, 0⟩
  else ⟨x.significand * Nat.pow 5 (-x.scale).toNat, x.scale⟩

/-- The magnitude of `x` reads back from the decimal. -/
def names (x : Double) (d : Decimal) : Bool :=
  Double.ofDecimal x.negative d.digits d.exponent == some x

/-- The nearer of the two decimals with `count` digits on either side of
`d`, of those that read back as `x`. -/
def nearestOf (x : Double) (d : Decimal) (total count : Nat) : Option Decimal :=
  let unit := Nat.pow 10 (total - count)
  let low : Decimal := ⟨d.digits / unit, d.exponent + (total - count : Nat)⟩
  let high : Decimal := ⟨d.digits / unit + 1, d.exponent + (total - count : Nat)⟩
  let below := d.digits % unit
  match names x low, names x high with
  | true, true =>
    if 2 * below < unit ∨ (2 * below = unit ∧ low.digits % 2 = 0) then some low else some high
  | true, false => some low
  | false, true => some high
  | false, false => none

/-- The first count of digits, from `count` on, at which a decimal reads
back. After `fuel` counts all digits are kept. -/
def search (x : Double) (d : Decimal) (total : Nat) : Nat → Nat → Decimal
  | 0, _ => d
  | fuel + 1, count =>
    match nearestOf x d total count with
    | some short => short
    | none => search x d total fuel (count + 1)

/-- The decimal with the fewest digits that reads back as the magnitude of
`x`, and of those the one nearest to it. -/
def shortest (x : Double) : Decimal :=
  let d := exact x
  if d.digits = 0 then ⟨0, 0⟩
  else
    let total := Double.digitCount d.digits
    (search x d total (total - 1) 1).trimmed

end Decimal

/-! ## Layout -/

/-- How a decimal is written. -/
structure Layout where
  /-- The exponent of the first digit from which it is written positionally;
  without one there is no such bound. -/
  lowest : Option Int
  /-- The last exponent of the first digit at which it is written positionally. -/
  highest : Option Int
  /-- A whole number that is written positionally ends in `.0`. -/
  keepsPoint : Bool

namespace Layout

/-- An exponent of ten with its mark and its sign. -/
def exponentText (x : Int) : List Char :=
  'e' :: (if x < 0 then '-' else '+') :: Nat.toDigits 10 x.natAbs

/-- Digits with a point after the first and an exponent. -/
def scientific (ds : List Char) (x : Int) : List Char :=
  match ds with
  | [] => []
  | d :: [] => d :: exponentText x
  | d :: rest => d :: '.' :: rest ++ exponentText x

/-- Digits at their places around the point, the first one at `10 ^ x`. -/
def positional (keepsPoint : Bool) (ds : List Char) (x : Int) : List Char :=
  if x < 0 then ['0', '.'] ++ List.replicate (-x - 1).toNat '0' ++ ds
  else
    let whole := x.toNat + 1
    if ds.length ≤ whole then
      ds ++ List.replicate (whole - ds.length) '0' ++ (if keepsPoint then ['.', '0'] else [])
    else ds.take whole ++ '.' :: ds.drop whole

def text (l : Layout) (d : Decimal) : List Char :=
  let ds := Nat.toDigits 10 d.digits
  let x : Int := d.exponent + (ds.length : Int) - 1
  if l.lowest.all (· ≤ x) && l.highest.all (x ≤ ·) then positional l.keepsPoint ds x
  else scientific ds x

/-- Every digit at its place, and no point after a whole number. -/
def plain : Layout := ⟨none, none, false⟩

end Layout

end GuardedCall
