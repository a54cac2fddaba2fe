-- The numbers of JSON: whole numbers that fit sixty-four bits, and doubles.
import GuardedCall.Number.Double

namespace GuardedCall

/-- A number of a JSON value. -/
inductive Number where
  | whole (n : Int)
  | double (x : Double)
deriving DecidableEq, Inhabited

namespace Number

/-- A whole number that sixty-four bits hold, signed or unsigned. -/
def FitsWord (n : Int) : Prop := -0x8000000000000000 ≤ n ∧ n < 0x10000000000000000

instance (n : Int) : Decidable (FitsWord n) := inferInstanceAs (Decidable (_ ∧ _))

/-- A number that a JSON value may hold. -/
def Valid : Number → Prop
  | .whole n => FitsWord n
  | .double x => x.isFinite = true

instance (n : Number) : Decidable n.Valid := by
  cases n <;> unfold Valid <;> infer_instance

/-- The whole number `m` and the power of two `e` with the value `m * 2 ^ e`. -/
def parts : Number → Int × Int
  | .whole n => (n, 0)
  | .double x => (x.signedSignificand, x.scale)

/-- The two numbers as whole multiples of one power of two. -/
def aligned (a b : Number) : Int × Int :=
  let (m, e) := a.parts
  let (n, f) := b.parts
  let low := min e f
  (m * (Nat.pow 2 (e - low).toNat : Nat), n * (Nat.pow 2 (f - low).toNat : Nat))

/-- The value of `a` is less than that of `b`, exactly. -/
def lt (a b : Number) : Bool := (aligned a b).1 < (aligned a b).2

/-- The values of `a` and `b` are the same, exactly. -/
def same (a b : Number) : Bool := (aligned a b).1 == (aligned a b).2

def toDouble : Number → Double
  | .whole n => Double.ofInt n
  | .double x => x

def isIntegral : Number → Bool
  | .whole _ => true
  | .double x => x.isIntegral

end Number

end GuardedCall
