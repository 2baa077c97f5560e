/-! The numbers a diagram is computed with. Whole numbers and doubles run the program; rationals
read the same definitions as exact arithmetic. A fault of arithmetic is a value, never a silent
result: numbers that may be too large for a double are asked for before they are used as one. -/
namespace EntityDiagram

/-- Arithmetic that has no answer. -/
inductive ArithmeticFault where
  | divisionByZero
  /-- The whole part of an infinite number was asked for. -/
  | infiniteInteger
  /-- The whole part of something that is not a number was asked for. -/
  | undefinedInteger
  /-- A whole number that is too large for a double was used as one. -/
  | tooLarge
  deriving DecidableEq, Repr

/-- The wording of an arithmetic fault. -/
def ArithmeticFault.message : ArithmeticFault → String
  | .divisionByZero => "float division by zero"
  | .infiniteInteger => "cannot convert float infinity to integer"
  | .undefinedInteger => "cannot convert float NaN to integer"
  | .tooLarge => "int too large to convert to float"

/-- What a number stands for. A zero keeps its sign beside its value. -/
inductive Reading where
  | finite (negative : Bool) (value : Rat)
  | infinite (negative : Bool)
  | undefined
  deriving DecidableEq, Repr

def Reading.isFinite : Reading → Bool
  | .finite .. => true
  | _ => false

/-- Whole part, downward. -/
def Reading.floor : Reading → Except ArithmeticFault Int
  | .finite _ value => .ok value.floor
  | .infinite _ => .error .infiniteInteger
  | .undefined => .error .undefinedInteger

/-- Whether a number is below another. What is undefined is below nothing and above nothing. -/
def Reading.isBelow : Reading → Reading → Bool
  | .undefined, _ | _, .undefined => false
  | .finite _ a, .finite _ b => a < b
  | .finite .., .infinite negative => !negative
  | .infinite negative, .finite .. => negative
  | .infinite a, .infinite b => a && !b

/-- Whether two numbers are the same. What is undefined is not even the same as itself. -/
def Reading.isSame : Reading → Reading → Bool
  | .finite _ a, .finite _ b => a = b
  | .infinite a, .infinite b => a = b
  | _, _ => false

/-- Arithmetic together with a reading of every number. Equality is the numeric one: it need not
be reflexive, and it may equate two zeros of different sign. Numbers may be exact, with more digits
than a measurement has; `approx` drops what is too much. It has no answer for an exact number that
does not fit a measurement. -/
class Scalar (α : Type) extends Add α, Sub α, Mul α, Div α, Neg α, LT α, BEq α where
  decidableLT : DecidableLT α
  ofInt : Int → α
  approx : α → α
  abs : α → α
  reading : α → Reading
  isExact : α → Bool
  fits : α → Bool

namespace Scalar

variable {α : Type} [Scalar α]

instance : DecidableLT α := decidableLT

instance (priority := low) (n : Nat) : OfNat α n := ⟨ofInt n⟩

def isFinite (a : α) : Bool := (reading a).isFinite

/-- Whether a number is finite or infinitely far down. -/
def isBelowInfinity (a : α) : Bool := (reading a).isBelow (.infinite false)

/-- The sign alone: a negative zero counts as negative. -/
def isNegative (a : α) : Bool :=
  match reading a with
  | .finite negative _ | .infinite negative => negative
  | .undefined => false

/-- The first number unless the second exceeds it. -/
def larger (a b : α) : α := if a < b then b else a

/-- The first number unless the second is below it. -/
def smaller (a b : α) : α := if b < a then b else a

/-- The greatest number of a list, zero when it is empty. -/
def greatestOf : List α → α
  | [] => 0
  | a :: rest => rest.foldl larger a

/-- The least number of a list, zero when it is empty. -/
def leastOf : List α → α
  | [] => 0
  | a :: rest => rest.foldl smaller a

/-- A number as a measurement. -/
def measured (a : α) : Except ArithmeticFault α :=
  if fits a then .ok (approx a) else .error .tooLarge

/-- Whether two numbers have a sum and a difference. Those of exact numbers are exact; beside any
other number a number has to fit. -/
def combines (a b : α) : Bool := (isExact a && isExact b) || (fits a && fits b)

/-- The sum of numbers that may be too large. -/
def sum (a b : α) : Except ArithmeticFault α :=
  if combines a b then .ok (a + b) else .error .tooLarge

/-- The difference of numbers that may be too large. -/
def difference (a b : α) : Except ArithmeticFault α :=
  if combines a b then .ok (a - b) else .error .tooLarge

theorem sum_eq_ok_iff {a b c : α} : sum a b = .ok c ↔ combines a b = true ∧ c = a + b := by
  unfold sum
  cases combines a b <;> simp [eq_comm]

theorem difference_eq_ok_iff {a b c : α} :
    difference a b = .ok c ↔ combines a b = true ∧ c = a - b := by
  unfold difference
  cases combines a b <;> simp [eq_comm]

/-- The nearest whole number, a half going up. -/
def roundHalfUp (a : α) : Except ArithmeticFault α :=
  if fits a then (reading (a + 1 / 2)).floor.map fun n => approx (ofInt n) else .error .tooLarge

/-- What is rounded fits, and its nearest whole number is known. -/
theorem roundHalfUp_eq_ok_iff {a b : α} : roundHalfUp a = .ok b ↔ fits a = true ∧
    (reading (a + 1 / 2)).floor.map (fun n => approx (ofInt n)) = .ok b := by
  unfold roundHalfUp
  cases fits a <;> simp

/-- Division that refuses a zero divisor. -/
def quotient (a b : α) : Except ArithmeticFault α :=
  if !(fits a && fits b) then .error .tooLarge
  else if b == 0 then .error .divisionByZero
  else .ok (a / b)

theorem quotient_eq_ok_iff {a b c : α} : quotient a b = .ok c ↔
    (fits a = true ∧ fits b = true) ∧ (b == 0) = false ∧ c = a / b := by
  unfold quotient
  cases fits a <;> cases fits b <;> cases b == 0 <;> simp [eq_comm]

end Scalar

end EntityDiagram
