import EntityDiagram.Scalar

/-! Rational numbers as scalars: every operation is exact, every number is finite, and none is too
large. -/
namespace EntityDiagram

instance : Scalar Rat where
  decidableLT := inferInstance
  ofInt n := n
  approx q := q
  abs q := if q < 0 then -q else q
  reading q := .finite (decide (q < 0)) q
  isExact _ := true
  fits _ := true

namespace Scalar

@[simp] theorem reading_exact (q : Rat) : reading q = .finite (decide (q < 0)) q := rfl

@[simp] theorem approx_exact (q : Rat) : approx q = q := rfl

@[simp] theorem isFinite_exact (q : Rat) : isFinite q = true := rfl

@[simp] theorem isNegative_exact (q : Rat) : isNegative q = decide (q < 0) := rfl

@[simp] theorem fits_exact (q : Rat) : fits q = true := rfl

@[simp] theorem measured_exact (q : Rat) : measured q = .ok q := rfl

@[simp] theorem combines_exact (p q : Rat) : combines p q = true := rfl

@[simp] theorem sum_exact (p q : Rat) : sum p q = .ok (p + q) := rfl

@[simp] theorem difference_exact (p q : Rat) : difference p q = .ok (p - q) := rfl

@[simp] theorem roundHalfUp_exact (q : Rat) : roundHalfUp q = .ok ((q + 1 / 2).floor : Rat) := rfl

example : larger (1 : Rat) 2 = 2 ∧ smaller (1 : Rat) 2 = 1 := by decide +kernel

end Scalar

end EntityDiagram
