import EntityDiagram.Scalar.Double

/-! The numbers of the program. A whole number is exact, however great; a double has 53 significant
bits. Sums, differences and products of whole numbers are whole. What is computed with a double, and
every quotient, is a double; a comparison is exact also between the two kinds. A whole number that
rounds to an infinity does not fit a double. -/
namespace EntityDiagram

inductive Number where
  | whole (n : Int)
  | double (x : Float)
  deriving DecidableEq, Repr

namespace Number

/-- The nearest double, a half to the even neighbor. Only for a number that fits is it one that the
program computes with. -/
def toDouble : Number → Float
  | whole n => Float.ofInt n
  | double x => x

def isWhole : Number → Bool
  | whole _ => true
  | double _ => false

/-- Whether a number can be used as a double. -/
def fits : Number → Bool
  | whole n => (Double.reading (Float.ofInt n)).isFinite
  | double _ => true

/-- The exact value. -/
def exactReading : Number → Reading
  | whole n => .finite (decide (n < 0)) n
  | double x => Double.reading x

/-- An operation on two whole numbers, or on the doubles next to the numbers. -/
def combine (exact : Int → Int → Int) (inexact : Float → Float → Float) :
    Number → Number → Number
  | whole m, whole n => whole (exact m n)
  | a, b => double (inexact a.toDouble b.toDouble)

/-- The quotient of two numbers as a double. Whole numbers that do not fit a double may have a
quotient that does: its whole part is rounded, made odd where a fraction follows, so that the
fraction decides what is half-way without it. -/
def div : Number → Number → Number
  | whole m, whole n =>
    if (whole m).fits && (whole n).fits then double (Float.ofInt m / Float.ofInt n)
    else if m % n = 0 ∨ m / n % 2 = 1 then double (Float.ofInt (m / n))
    else double (Float.ofInt (m / n + 1))
  | a, b => double (a.toDouble / b.toDouble)

def isBelow : Number → Number → Bool
  | whole m, whole n => m < n
  | double x, double y => x < y
  | a, b => a.exactReading.isBelow b.exactReading

def isSame : Number → Number → Bool
  | whole m, whole n => m = n
  | double x, double y => x == y
  | a, b => a.exactReading.isSame b.exactReading

def neg : Number → Number
  | whole n => whole (-n)
  | double x => double (-x)

def abs : Number → Number
  | whole n => whole n.natAbs
  | double x => double x.abs

instance : LT Number := ⟨fun a b => a.isBelow b = true⟩

instance : DecidableLT Number := fun a b => inferInstanceAs (Decidable (a.isBelow b = true))

instance : Scalar Number where
  add := combine (· + ·) (· + ·)
  sub := combine (· - ·) (· - ·)
  mul := combine (· * ·) (· * ·)
  div := div
  neg := neg
  beq := isSame
  decidableLT := inferInstance
  ofInt := whole
  approx a := double a.toDouble
  abs := abs
  reading a := Double.reading a.toDouble
  isExact := isWhole
  fits := fits

theorem add_double (a : Number) (y : Float) : a + double y = double (a.toDouble + y) := by
  cases a <;> rfl

theorem double_add (x : Float) (b : Number) : double x + b = double (x + b.toDouble) := by
  cases b <;> rfl

theorem mul_double (a : Number) (y : Float) : a * double y = double (a.toDouble * y) := by
  cases a <;> rfl

/-- A quotient is a double. -/
theorem exists_div_eq (a b : Number) : ∃ x, a / b = double x := by
  change ∃ x, div a b = double x
  unfold div
  split
  · split
    · exact ⟨_, rfl⟩
    · split <;> exact ⟨_, rfl⟩
  · exact ⟨_, rfl⟩

example : (whole 0x20000000000001 + whole 2 : Number) = whole 0x20000000000003 := by decide +kernel
example : (whole 0x20000000000001 + double 2 : Number) = double 0x20000000000002 := by
  decide +kernel
example : (double 0x20000000000000 < whole 0x20000000000001 : Prop) := by decide +kernel
example : Scalar.combines (whole (10 ^ 400)) (whole 7) = true := by decide +kernel
example : Scalar.combines (whole (10 ^ 400)) (double 7) = false := by decide +kernel
example : (whole (10 ^ 309) / whole 20 : Number) = double 5e307 := by decide +kernel

end Number

end EntityDiagram
