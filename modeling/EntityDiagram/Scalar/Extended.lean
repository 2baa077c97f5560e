import EntityDiagram.Scalar.Exact

/-! Exact arithmetic on all that a double can stand for: rational numbers, the two infinities and
what is undefined. Finite numbers never leave the finite ones but by a division by zero. As among
the rationals, a zero has no sign. -/
namespace EntityDiagram

inductive Extended where
  | finite (value : Rat)
  | infinite (negative : Bool)
  | undefined
  deriving DecidableEq, Repr

namespace Extended

def neg : Extended → Extended
  | finite a => finite (-a)
  | infinite negative => infinite !negative
  | undefined => undefined

def add : Extended → Extended → Extended
  | finite a, finite b => finite (a + b)
  | infinite s, infinite t => if s = t then infinite s else undefined
  | infinite s, finite _ | finite _, infinite s => infinite s
  | undefined, _ | _, undefined => undefined

/-- An infinity has no product with zero. -/
def mul : Extended → Extended → Extended
  | finite a, finite b => finite (a * b)
  | infinite s, infinite t => infinite (s != t)
  | infinite s, finite a | finite a, infinite s =>
    if a = 0 then undefined else infinite (s != decide (a < 0))
  | undefined, _ | _, undefined => undefined

/-- What is divided by zero becomes infinite, unless it is zero itself. -/
def div : Extended → Extended → Extended
  | finite a, finite b =>
    if b = 0 then if a = 0 then undefined else infinite (decide (a < 0)) else finite (a / b)
  | finite _, infinite _ => finite 0
  | infinite s, finite b => infinite (s != decide (b < 0))
  | infinite _, infinite _ => undefined
  | undefined, _ | _, undefined => undefined

def abs : Extended → Extended
  | finite a => finite (Scalar.abs a)
  | infinite _ => infinite false
  | undefined => undefined

def reading : Extended → Reading
  | finite a => Scalar.reading a
  | infinite negative => .infinite negative
  | undefined => .undefined

instance : LT Extended := ⟨fun a b => a.reading.isBelow b.reading = true⟩

instance : DecidableLT Extended := fun a b =>
  inferInstanceAs (Decidable (a.reading.isBelow b.reading = true))

instance : Scalar Extended where
  add := add
  sub a b := add a (neg b)
  mul := mul
  div := div
  neg := neg
  beq a b := a.reading.isSame b.reading
  decidableLT := inferInstance
  ofInt n := finite n
  approx a := a
  abs := abs
  reading := reading
  isExact _ := true
  fits _ := true

example : (infinite false - infinite false : Extended) = undefined := by decide +kernel
example : (finite 1 / finite 0 : Extended) = infinite false := by decide +kernel
example : (finite 3 < infinite false : Prop) ∧ ¬(undefined < infinite false : Prop) := by
  decide +kernel

variable (a b : Rat)

@[simp] theorem finite_add : finite a + finite b = finite (a + b) := rfl

@[simp] theorem finite_sub : finite a - finite b = finite (a - b) := by
  rw [Rat.sub_eq_add_neg]
  rfl

@[simp] theorem finite_mul : finite a * finite b = finite (a * b) := rfl

@[simp] theorem neg_finite : -finite a = finite (-a) := rfl

theorem finite_div {b : Rat} (h : b ≠ 0) : finite a / finite b = finite (a / b) := if_neg h

@[simp] theorem abs_finite : Scalar.abs (finite a) = finite (Scalar.abs a) := rfl

@[simp] theorem finite_lt_iff : finite a < finite b ↔ a < b := decide_eq_true_iff

theorem finite_beq_iff : (finite a == finite b) = true ↔ a = b := decide_eq_true_iff

@[simp] theorem fits_eq (a : Extended) : Scalar.fits a = true := rfl

@[simp] theorem isFinite_finite : Scalar.isFinite (finite a) = true := rfl

theorem exists_eq_finite {a : Extended} (h : Scalar.isFinite a = true) : ∃ q, a = finite q := by
  cases a with
  | finite q => exact ⟨q, rfl⟩
  | infinite | undefined => contradiction

end Extended

end EntityDiagram
