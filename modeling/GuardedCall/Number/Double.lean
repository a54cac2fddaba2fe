-- Double precision numbers as their sixty-four bits, the exact value that
-- the bits stand for, and the double nearest to a fraction.
namespace GuardedCall

/-- A double, kept as its bits so that two of them are told apart exactly
when their bits differ. -/
structure Double where
  bits : UInt64
deriving DecidableEq, Inhabited

namespace Double

/-! ## The parts of a double -/

/-- The sign bit: `2 ^ 63`. -/
def signBit : Nat := 0x8000000000000000

/-- The number of fractions, and the bit in front of them: `2 ^ 52`. -/
def fractionSpan : Nat := 0x10000000000000

/-- The number of exponents: `2 ^ 11`. -/
def exponentSpan : Nat := 0x800

/-- The magnitude bits of infinity. All smaller ones are those of numbers. -/
def infinityBits : Nat := 0x7ff0000000000000

def negative (x : Double) : Bool := signBit ≤ x.bits.toNat

def exponentField (x : Double) : Nat := x.bits.toNat / fractionSpan % exponentSpan

def fractionField (x : Double) : Nat := x.bits.toNat % fractionSpan

/-- A number, so neither infinite nor undefined. -/
def isFinite (x : Double) : Bool := x.exponentField ≠ 2047

/-- The whole number `m` of the magnitude `m * 2 ^ scale`. -/
def significand (x : Double) : Nat :=
  if x.exponentField = 0 then x.fractionField else fractionSpan + x.fractionField

/-- The power of two that the significand counts. -/
def scale (x : Double) : Int :=
  if x.exponentField = 0 then -1074 else (x.exponentField : Int) - 1075

/-- The significand with the sign of the double. -/
def signedSignificand (x : Double) : Int :=
  if x.negative then -x.significand else x.significand

/-- The double of the magnitude bits `n` with the given sign. -/
def ofMagnitude (negative : Bool) (n : Nat) : Double :=
  ⟨UInt64.ofNat (if negative then signBit + n else n)⟩

def zero : Double := ofMagnitude false 0
def infinity : Double := ofMagnitude false infinityBits
def undefined : Double := ofMagnitude false (infinityBits + fractionSpan / 2)

/-! ## Rounding -/

/-- The quotient rounded to the nearest whole number, a tie to the even one. -/
def roundDiv (num den : Nat) : Nat :=
  let q := num / den
  let r := 2 * (num % den)
  if r < den then q else if den < r then q + 1 else q + q % 2

/-- The quotient of `num` and `den * 2 ^ scale`, rounded. -/
def roundScaled (num den : Nat) (scale : Int) : Nat :=
  roundDiv (num * Nat.pow 2 (-scale).toNat) (den * Nat.pow 2 scale.toNat)

/-- The power of two below which the fifty-three bits of the nearest double
of `num / den` end. -/
def scaleOf (num den : Nat) : Int :=
  let guess : Int := max ((num.log2 : Int) - den.log2 - 53) (-1074)
  let q := num * Nat.pow 2 (-guess).toNat / (den * Nat.pow 2 guess.toNat)
  if q < 2 * fractionSpan then guess else guess + 1

/-- The bits of the double nearest to `num / den`, ties to the even one.
`none` when the fraction is too large for a double. -/
def magnitudeNearest (num den : Nat) : Option Nat :=
  if num = 0 then some 0
  else
    let s := scaleOf num den
    let n := (s + 1074).toNat * fractionSpan + roundScaled num den s
    if n < infinityBits then some n else none

/-- The number of decimal digits of `n`. -/
def digitCount (n : Nat) : Nat := (Nat.toDigits 10 n).length

/-- The double nearest to `digits * 10 ^ exponent`. An exponent so small or
so large that the digits no longer matter is not raised to a power. -/
def ofDecimal (negative : Bool) (digits : Nat) (exponent : Int) : Option Double :=
  if digits = 0 then some (ofMagnitude negative 0)
  else if 310 < exponent then none
  else if exponent + digitCount digits < -400 then some (ofMagnitude negative 0)
  else
    (magnitudeNearest (digits * Nat.pow 10 exponent.toNat) (Nat.pow 10 (-exponent).toNat)).map
      (ofMagnitude negative)

/-- The double nearest to a whole number, infinite when there is none. -/
def ofInt (n : Int) : Double :=
  match magnitudeNearest n.natAbs 1 with
  | some bits => ofMagnitude (n < 0) bits
  | none => ofMagnitude (n < 0) infinityBits

/-! ## Arithmetic -/

def toFloat (x : Double) : Float := Float.ofBits x.bits
def ofFloat (x : Float) : Double := ⟨x.toBits⟩

def add (x y : Double) : Double := ofFloat (x.toFloat + y.toFloat)
def div (x y : Double) : Double := ofFloat (x.toFloat / y.toFloat)

/-- A finite double without a fractional part. -/
def isIntegral (x : Double) : Bool :=
  x.isFinite && (0 ≤ x.scale || x.significand % Nat.pow 2 (-x.scale).toNat == 0)

/-- The value of a double without a fractional part. -/
def toInt (x : Double) : Int :=
  if 0 ≤ x.scale then x.signedSignificand * (Nat.pow 2 x.scale.toNat : Nat)
  else x.signedSignificand.tdiv (Nat.pow 2 (-x.scale).toNat : Nat)

end Double

end GuardedCall
