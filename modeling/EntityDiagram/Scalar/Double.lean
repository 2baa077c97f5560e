import EntityDiagram.Scalar

/-! What doubles stand for. A double is read from its 64 bits: sign, 11 bits of exponent, 52 bits of
significand; the greatest exponent is kept for infinities and for what is not a number. -/
namespace EntityDiagram

namespace Double

/-- The bit of the sign. -/
def signBit : Nat := 0x8000000000000000

/-- The bit above the significand; normal numbers have it without writing it. -/
def leadingBit : Nat := 0x10000000000000

/-- The whole number `significand` scaled by a power of two, the exponent counted from −1074. -/
def scaled (significand exponent : Nat) : Rat :=
  if 1074 ≤ exponent then mkRat (significand * Nat.pow 2 (exponent - 1074) : Nat) 1
  else mkRat significand (Nat.pow 2 (1074 - exponent))

/-- Reads the 64 bits of a double. Subnormal numbers have no leading bit. -/
def readingOfBits (bits : Nat) : Reading :=
  let negative := decide (signBit ≤ bits)
  let exponent := bits / leadingBit % 2048
  let significand := bits % leadingBit
  let signed (value : Rat) := if negative then -value else value
  if exponent = 2047 then
    if significand = 0 then .infinite negative else .undefined
  else if exponent = 0 then .finite negative (signed (scaled significand 0))
  else .finite negative (signed (scaled (leadingBit + significand) (exponent - 1)))

example : readingOfBits 0x3FF8000000000000 = .finite false (3 / 2) := by decide +kernel
example : readingOfBits 0x8000000000000000 = .finite true 0 := by decide +kernel
example : readingOfBits 0x7FF0000000000000 = .infinite false := by decide +kernel

def reading (x : Float) : Reading := readingOfBits x.toBits.toNat

end Double

end EntityDiagram
