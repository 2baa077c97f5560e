import EntityDiagram.Scalar

/-! Numbers as text with a given count of significant digits. The exact value is rounded once, a
half to the even neighbour; closing zeros are dropped; very small and very large numbers have an
exponent. -/
namespace EntityDiagram

namespace Decimal

/-- The quotient rounded to the nearest whole number, a half to the even neighbour. -/
def roundedQuotient (num den : Nat) : Nat :=
  let whole := num / den
  let twice := 2 * (num % den)
  if den < twice ∨ (twice = den ∧ whole % 2 = 1) then whole + 1 else whole

/-- A power of ten. -/
def ten (k : Nat) : Nat := Nat.pow 10 k

/-- The quotient times a power of ten, rounded. -/
def rounded (num den : Nat) : Int → Nat
  | .ofNat k => roundedQuotient (num * ten k) den
  | .negSucc k => roundedQuotient num (den * ten (k + 1))

/-- Whether the quotient is below a power of ten. -/
def belowPower (num den : Nat) : Int → Bool
  | .ofNat k => num < ten k * den
  | .negSucc k => num * ten (k + 1) < den

/-- The exponent of the leading digit of a positive quotient. The two digit counts leave two
candidates. -/
def leadingExponent (num den : Nat) : Int :=
  let guess : Int := (Nat.toDigits 10 num).length - (Nat.toDigits 10 den).length
  if belowPower num den guess then guess - 1 else guess

/-- A positive number to some count of digits: the digits read as a whole number, and the exponent
of the first of them. -/
structure Significant where
  digits : Nat
  exponent : Int
  deriving DecidableEq, Repr

/-- Rounds a positive quotient to a count of digits. Rounding may reach the next power of ten. -/
def significant (count num den : Nat) : Significant :=
  let exponent := leadingExponent num den
  let digits := rounded num den (count - 1 - exponent)
  if digits = ten count then ⟨ten (count - 1), exponent + 1⟩ else ⟨digits, exponent⟩

/-- Removes the zeros at the end. -/
def dropLastZeros : List Char → List Char
  | [] => []
  | c :: rest =>
    match dropLastZeros rest with
    | [] => if c = '0' then [] else [c]
    | kept => c :: kept

/-- Digits after a point, or nothing when there are none. -/
def fraction : List Char → List Char
  | [] => []
  | digits => '.' :: digits

/-- The exponent with its sign and at least two digits. -/
def exponentText (exponent : Int) : List Char :=
  let digits := Nat.toDigits 10 exponent.natAbs
  ['e', if exponent < 0 then '-' else '+'] ++ (if digits.length < 2 then '0' :: digits else digits)

/-- Positional from three zeros after the point up to the count of digits; with an exponent below
and above. -/
def Significant.text (count : Nat) (s : Significant) : List Char :=
  let digits := dropLastZeros (Nat.toDigits 10 s.digits)
  if s.exponent < -4 ∨ count ≤ s.exponent then
    digits.take 1 ++ fraction (digits.drop 1) ++ exponentText s.exponent
  else if s.exponent < 0 then
    '0' :: fraction (List.replicate (s.exponent.natAbs - 1) '0' ++ digits)
  else
    let places := s.exponent.toNat + 1
    digits.take places ++ List.replicate (places - digits.length) '0' ++
      fraction (digits.drop places)

end Decimal

/-- A number with at most `count` significant digits. The sign of a zero shows. -/
def Reading.text (count : Nat) : Reading → List Char
  | .undefined => ['n', 'a', 'n']
  | .infinite negative => (if negative then ['-'] else []) ++ ['i', 'n', 'f']
  | .finite negative value =>
    (if negative then ['-'] else []) ++
      if value.num = 0 then ['0']
      else (Decimal.significant count value.num.natAbs value.den).text count

/-- The text of a number in drawings and messages: six significant digits. -/
def Scalar.text {α : Type} [Scalar α] (a : α) : String := String.ofList ((reading a).text 6)

example : (Reading.finite false (3 / 10)).text 6 = ['0', '.', '3'] := by decide +kernel
example : (Reading.finite true (-2469135)).text 6 = "-2.46914e+06".toList := by decide +kernel
example : (Reading.finite false (1 / 100000)).text 6 = "1e-05".toList := by decide +kernel
example : (Reading.finite false (9999995 / 10)).text 6 = "1e+06".toList := by decide +kernel
example : (Reading.finite true 0).text 6 = ['-', '0'] := by decide +kernel

end EntityDiagram
