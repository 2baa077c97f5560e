import EntityDiagram.Proofs.Scalar.WholeDoubles

/-! Sums of numbers that two kinds of number can stand for. Rounding sees the value of a significand
with an exponent, not how the two are chosen. So the sum of the doubles next to two whole numbers is
the double next to their sum, where these doubles are exact, and in a sum a whole number can be
replaced by a double of the same value. -/
namespace EntityDiagram

namespace Double

open Float.Model (Format UnpackedFloat totalExponent)
open Float.Model.UnpackedFloat

theorem shiftRight_add (m : ExtendedMantissa) (a b : Nat) : m >>> (a + b) = (m >>> a) >>> b := by
  induction b with
  | zero => rfl
  | succ b ih => exact congrArg ExtendedMantissa.shiftRightOne ih

section

variable {m : Nat} {e : Int} (j : Nat) (h : 0 < m)
include h

theorem totalExponent_mul_pow : totalExponent (m * 2 ^ j) (e - j) = totalExponent m e := by
  rw [totalExponent, totalExponent, log2_mul_pow h]
  omega

/-- Bits that a shift to the target exponent takes away again change nothing. -/
theorem roundWithAccuracy_scale (s : Sign)
    (he : e ≤ Format.binary64.targetExponent (totalExponent m e)) :
    roundWithAccuracy .binary64 s (m * 2 ^ j) (e - j) .exact =
      roundWithAccuracy .binary64 s m e .exact := by
  have hshifted : shiftToTargetExponent .binary64 (m * 2 ^ j) (e - j) .exact =
      shiftToTargetExponent .binary64 m e .exact := by
    unfold shiftToTargetExponent
    rw [totalExponent_mul_pow j h]
    generalize Format.binary64.targetExponent (totalExponent m e) = target at he
    have hshift : (target - (e - j)).toNat = j + (target - e).toNat := by omega
    simp only [shiftToExponent, ExtendedMantissa.ofMantissaAndAccuracy, hshift, shiftRight_add,
      mul_pow_shiftRight, Prod.mk.injEq, true_and]
    omega
  rw [roundWithAccuracy, hshifted]
  rfl

/-- Rounding from any exponent that is low enough. -/
theorem round_eq_of_le (s : Sign) {f : Int} (hfe : f ≤ e)
    (hf : f ≤ Format.binary64.targetExponent (totalExponent m e)) :
    UnpackedFloat.round .binary64 s m e =
      roundWithAccuracy .binary64 s (m * 2 ^ (e - f).toNat) f .exact := by
  generalize htarget : Format.binary64.targetExponent (totalExponent m e) = target at hf
  have hround : UnpackedFloat.round .binary64 s m e = roundWithAccuracy .binary64 s
      (m * 2 ^ (e - target).toNat) (e - (e - target).toNat) .exact := by
    simp only [UnpackedFloat.round, decreaseExponent, Nat.shiftLeft_eq, htarget]
  have hscaled := roundWithAccuracy_scale (m := m * 2 ^ (e - target).toNat)
    (e := e - (e - target).toNat) (e - (e - target).toNat - f).toNat (by positivity) s
    (by rw [totalExponent_mul_pow _ h, htarget]; omega)
  rw [hround, ← hscaled, Nat.mul_assoc, ← Nat.pow_add]
  congr 3 <;> omega

/-- Rounding depends on the value alone. -/
theorem round_scale (s : Sign) :
    UnpackedFloat.round .binary64 s (m * 2 ^ j) (e - j) = UnpackedFloat.round .binary64 s m e := by
  generalize htarget : Format.binary64.targetExponent (totalExponent m e) = target
  -- Both are rounded from an exponent that neither exceeds.
  have hscaled := round_eq_of_le (m := m * 2 ^ j) (e := e - j) (f := min (e - j) target)
    (by positivity) s (by omega) (by rw [totalExponent_mul_pow j h, htarget]; omega)
  have hplain := round_eq_of_le (e := e) (f := min (e - j) target) h s (by omega)
    (by rw [htarget]; omega)
  rw [hscaled, hplain, Nat.mul_assoc, ← Nat.pow_add]
  congr 3
  omega

end

theorem normalize_scale (m e : Int) (j : Nat) :
    UnpackedFloat.normalize .binary64 (m * 2 ^ j) (e - j) .positive =
      UnpackedFloat.normalize .binary64 m e .positive := by
  have hpow : (0 : Int) < 2 ^ j := by positivity
  have hcast : ((2 ^ j : Nat) : Int) = 2 ^ j := by push_cast; rfl
  unfold UnpackedFloat.normalize
  rcases lt_trichotomy m 0 with h | rfl | h
  · have hnat : (-(m * 2 ^ j)).toNat = (-m).toNat * 2 ^ j := by
      rw [← hcast, ← Int.neg_mul, Int.toNat_mul (by omega) (by omega), Int.toNat_natCast]
    rw [compare_lt_iff_lt.mpr h, compare_lt_iff_lt.mpr (Int.mul_neg_of_neg_of_pos h hpow)]
    simp only [hnat]
    exact round_scale j (by omega) .negative
  · rw [Int.zero_mul]
    rfl
  · have hnat : (m * 2 ^ j).toNat = m.toNat * 2 ^ j := by
      rw [← hcast, Int.toNat_mul (by omega) (by omega), Int.toNat_natCast]
    rw [compare_gt_iff_gt.mpr h, compare_gt_iff_gt.mpr (Int.mul_pos h hpow)]
    simp only [hnat]
    exact round_scale j (by omega) .positive

/-- Whatever multiple of a power of two a whole number is written as, it is rounded as itself. -/
theorem normalize_of_value {m e n : Int} (h : (m : Rat) * 2 ^ e = n) :
    UnpackedFloat.normalize .binary64 m e .positive =
      UnpackedFloat.normalize .binary64 n 0 .positive := by
  rcases le_total 0 e with he | he
  · obtain ⟨j, rfl⟩ := Int.eq_ofNat_of_zero_le he
    obtain rfl : m * 2 ^ j = n := by exact_mod_cast h
    rw [← normalize_scale m j j, Int.sub_self]
  · obtain ⟨j, hj⟩ := Int.exists_eq_neg_ofNat he
    rw [hj, zpow_neg, zpow_natCast] at h
    have hpow : (2 : Rat) ^ j ≠ 0 := by positivity
    obtain rfl : m = n * 2 ^ j := by
      have hvalue : (m : Rat) = n * 2 ^ j := by
        rw [← h, mul_assoc, inv_mul_cancel₀ hpow, mul_one]
      exact_mod_cast hvalue
    rw [hj, ← normalize_scale n 0 j, Int.zero_sub]

/-- The double next to a natural number, however it is converted. -/
theorem parts_ofNat {n : Nat} (h : 0 < n) : parts (Float.ofNat n) =
    unpack .binary64 (pack .binary64 (UnpackedFloat.round .binary64 .positive n 0)) := by
  rcases Nat.lt_or_ge n (2 ^ 53) with hlt | hge
  · obtain ⟨hlog, hlead, hbelow⟩ := significand_bounds h hlt
    rw [parts_ofNat_of_lt h hlt, round_whole h hlt, unpack_pack_finite] <;> omega
  · have htarget : 0 ≤ Format.binary64.targetExponent (totalExponent n 0) := by
      have hlog : 53 ≤ n.log2 := (Nat.le_log2 (by omega)).mpr hge
      change 0 ≤ max ((n.log2 : Int) + 1 + 0 - 53) (-1074)
      omega
    have hround := round_eq_of_le h .positive le_rfl htarget
    rw [Int.sub_zero, Int.toNat_zero, Nat.pow_zero, Nat.mul_one] at hround
    rw [parts_ofNat_of_le hge, hround, ← roundWithAccuracy_scale 53 h .positive htarget]
    rfl

/-- The double next to a whole number. -/
theorem parts_ofInt (n : Int) : parts (Float.ofInt n) =
    unpack .binary64 (pack .binary64 (UnpackedFloat.normalize .binary64 n 0 .positive)) := by
  cases n with
  | ofNat n =>
    rcases Nat.eq_zero_or_pos n with rfl | hpos
    · rfl
    · exact (parts_ofNat hpos).trans (by rw [← normalize_of_pos hpos]; rfl)
  | negSucc n =>
    have hneg : UnpackedFloat.normalize .binary64 (Int.negSucc n) 0 .positive =
        (UnpackedFloat.round .binary64 .positive (n + 1) 0).neg := by
      unfold UnpackedFloat.normalize
      rw [compare_lt_iff_lt.mpr (Int.negSucc_lt_zero n)]
      exact round_neg .positive (n + 1) 0
    rw [hneg, unpack_pack_neg, ← parts_ofNat n.succ_pos]
    exact parts_neg _

theorem apply_decreaseExponent (s : Sign) (m : Nat) {e f : Int} (h : f ≤ e) :
    ((s.apply (decreaseExponent m e f).1 : Int) : Rat) * 2 ^ f = (s.apply m : Int) * 2 ^ e := by
  obtain ⟨j, rfl⟩ := Int.le.dest h
  have hshift : (f + j - f).toNat = j := by omega
  simp only [decreaseExponent, hshift, Nat.shiftLeft_eq]
  rw [zpow_add₀ two_ne_zero, zpow_natCast]
  cases s <;> simp only [Sign.apply] <;> push_cast <;> ring

/-- Finite numbers that are whole are added as such, and the sum is rounded once. -/
theorem add_finite {s t : Sign} {m k : Nat} {e f : Int} (hm : 0 < m) (hk : 0 < k) {n p : Int}
    (hn : ((s.apply m : Int) : Rat) * 2 ^ e = n) (hp : ((t.apply k : Int) : Rat) * 2 ^ f = p) :
    UnpackedFloat.add .binary64 (.finite s m e hm) (.finite t k f hk) =
      UnpackedFloat.normalize .binary64 (n + p) 0 .positive := by
  apply normalize_of_value
  change ((s.apply (decreaseExponent m e (min e f)).1 +
    t.apply (decreaseExponent k f (min e f)).1 : Int) : Rat) * 2 ^ min e f = _
  rw [Int.cast_add, add_mul, apply_decreaseExponent s m (min_le_left e f),
    apply_decreaseExponent t k (min_le_right e f), hn, hp, Int.cast_add]

theorem parts_ofInt_zero : parts (Float.ofInt 0) = .zero .positive := rfl

/-- A whole number that a double holds, taken apart. -/
theorem parts_ofInt_cases {n : Int} (h : IsWhole n.natAbs) : n = 0 ∨ ∃ s m e, ∃ hm : 0 < m,
    parts (Float.ofInt n) = .finite s m e hm ∧ ((s.apply m : Int) : Rat) * 2 ^ e = n := by
  obtain ⟨negative, hreading⟩ := exists_reading_ofInt h
  have hstands := standsFor_parts (Float.ofInt n)
  rw [hreading] at hstands
  generalize parts (Float.ofInt n) = u at hstands
  generalize hvalue : (n : Rat) = value at hstands
  cases hstands with
  | zero s => exact .inl (by exact_mod_cast hvalue)
  | finite s hm _ _ =>
    refine .inr ⟨s, _, _, hm, rfl, ?_⟩
    rw [scaled_eq_zpow, signed]
    cases s <;> simp [Sign.apply, isNegative]

/-- The doubles next to two whole numbers that they hold have the double next to the sum as their
sum. -/
theorem parts_ofInt_add {n p : Int} (hn : IsWhole n.natAbs) (hp : IsWhole p.natAbs) :
    parts (Float.ofInt n + Float.ofInt p) = parts (Float.ofInt (n + p)) := by
  rw [parts_add]
  rcases parts_ofInt_cases hn with rfl | ⟨s, m, e, hm, hparts, hvalue⟩
  · rcases parts_ofInt_cases hp with rfl | ⟨t, k, f, hk, hparts', -⟩
    · rfl
    · have hsame := unpack_pack_parts (Float.ofInt p)
      rw [hparts'] at hsame
      rw [Int.zero_add, parts_ofInt_zero, hparts']
      exact hsame
  · rcases parts_ofInt_cases hp with rfl | ⟨t, k, f, hk, hparts', hvalue'⟩
    · have hsame := unpack_pack_parts (Float.ofInt n)
      rw [hparts] at hsame
      rw [Int.add_zero, parts_ofInt_zero, hparts]
      exact hsame
    · rw [hparts, hparts', add_finite hm hk hvalue hvalue', parts_ofInt]

theorem isNegative_inj {s t : Sign} (h : isNegative s = isNegative t) : s = t := by
  cases s <;> cases t <;> first | rfl | contradiction

theorem signed_inj (s : Sign) {v w : Rat} (h : signed s v = signed s w) : v = w := by
  unfold signed at h
  split_ifs at h
  · exact neg_injective h
  · exact h

/-- A significand and its exponent are known from their value. -/
theorem scaled_inj {m n k l : Nat} (hm : m < 2 ^ 53) (hmlead : k = 0 ∨ 2 ^ 52 ≤ m)
    (hn : n < 2 ^ 53) (hnlead : l = 0 ∨ 2 ^ 52 ≤ n) (h : scaled m k = scaled n l) :
    m = n ∧ k = l := by
  have hcompare := then_compare_eq hm hmlead hn hnlead
  rw [h, cmp_self_eq_eq, Ordering.then_eq_eq, compare_eq_iff_eq, compare_eq_iff_eq] at hcompare
  omega

/-- What is read alike is alike. -/
theorem StandsFor.unique {u v : UnpackedFloat} {r t : Reading} (hu : StandsFor u r)
    (hv : StandsFor v t) (h : r = t) : u = v := by
  cases hu with
  | undefined => cases hv <;> first | rfl | contradiction
  | infinite s =>
    cases hv with
    | infinite t => rw [isNegative_inj (Reading.infinite.inj h)]
    | undefined | zero _ | finite _ _ _ _ => contradiction
  | zero s =>
    cases hv with
    | zero t => rw [isNegative_inj (Reading.finite.inj h).1]
    | undefined | infinite _ => contradiction
    | finite t hn _ _ => exact absurd (Reading.finite.inj h).2.symm (signed_scaled_ne_zero t _ hn)
  | finite s hm hbound hlead =>
    cases hv with
    | zero t => exact absurd (Reading.finite.inj h).2 (signed_scaled_ne_zero s _ hm)
    | undefined | infinite _ => contradiction
    | finite t hn hbound' hlead' =>
      obtain ⟨hsign, hvalue⟩ := Reading.finite.inj h
      obtain rfl := isNegative_inj hsign
      obtain ⟨rfl, rfl⟩ := scaled_inj hbound hlead hbound' hlead' (signed_inj s hvalue)
      rfl

theorem StandsFor.reading_unique {u v : UnpackedFloat} {r t : Reading} (hu : StandsFor u r)
    (hv : StandsFor v t) (h : u = v) : r = t := by
  cases hu with
  | undefined => cases hv <;> first | rfl | contradiction
  | infinite s => cases hv <;> first | contradiction | (cases h; rfl)
  | zero s => cases hv <;> first | contradiction | (cases h; rfl)
  | @finite s m k hm _ _ =>
    cases hv with
    | undefined | infinite _ | zero _ => contradiction
    | @finite t n l hn _ _ =>
      rw [UnpackedFloat.finite.injEq] at h
      obtain ⟨rfl, rfl, hexponent⟩ := h
      obtain rfl : k = l := by omega
      rfl

theorem parts_eq_iff {x y : Float} : parts x = parts y ↔ reading x = reading y :=
  ⟨(standsFor_parts x).reading_unique (standsFor_parts y),
    (standsFor_parts x).unique (standsFor_parts y)⟩

/-- A sum with a finite double is defined where the other summand is. -/
theorem reading_add_ne_undefined {x y : Float} {negative : Bool} {value : Rat}
    (hx : reading x = .finite negative value) (hy : reading y ≠ .undefined) :
    reading (x + y) ≠ .undefined := by
  rw [Ne, reading_eq_undefined_iff, parts_add]
  apply unpack_pack_ne_notANumber
  have hu := standsFor_parts x
  have hv := standsFor_parts y
  rw [hx] at hu
  generalize parts x = u at hu
  generalize parts y = v at hv
  generalize reading y = r at hv hy
  cases hu with
  | zero s =>
    cases hv with
    | undefined => contradiction
    | zero t => cases s <;> cases t <;> exact UnpackedFloat.noConfusion
    | infinite t | finite t _ _ _ => exact UnpackedFloat.noConfusion
  | finite s _ _ _ =>
    cases hv with
    | undefined => contradiction
    | infinite t | zero t => exact UnpackedFloat.noConfusion
    | finite t _ _ _ => exact normalize_ne_notANumber _ _ _

/-- A difference is undefined only between two infinities on one side. -/
theorem reading_sub_eq_undefined_iff {x y : Float} (hx : reading x ≠ .undefined)
    (hy : reading y ≠ .undefined) : reading (x - y) = .undefined ↔
      ∃ negative, reading x = .infinite negative ∧ reading y = .infinite negative := by
  refine ⟨exists_infinite_of_reading_sub hx hy, ?_⟩
  rintro ⟨negative, hx, hy⟩
  obtain ⟨s, hs⟩ : ∃ s, isNegative s = negative := by
    cases negative
    · exact ⟨.positive, rfl⟩
    · exact ⟨.negative, rfl⟩
  have hinfinity {z : Float} (hz : reading z = .infinite negative) : parts z = .infinity s :=
    (standsFor_parts z).unique (.infinite s) (by rw [hz, hs])
  rw [reading_eq_undefined_iff, parts_sub, hinfinity hx, hinfinity hy]
  cases s <;> rfl

/-- A double is added as what it is read as. -/
theorem add_congr {x y : Float} (h : reading x = reading y) (z : Float) : x + z = y + z := by
  have hadd (x : Float) : x + z = ⟨Float.Model.pack
    (UnpackedFloat.add .binary64 (parts x) (parts z))⟩ := rfl
  rw [hadd, hadd, parts_eq_iff.mpr h]

end Double

namespace Number

/-- A whole number that a double holds is read exactly. -/
theorem reading_whole {n : Int} (h : Double.IsWhole n.natAbs) :
    Scalar.reading (whole n) = (whole n).exactReading := by
  obtain ⟨negative, hreading⟩ := Double.exists_reading_ofInt h
  change Double.reading (Float.ofInt n) = .finite (decide (n < 0)) n
  by_cases hn : n = 0
  · subst hn
    decide +kernel
  · rw [hreading, Double.negative_eq_of_ne_zero hreading (by exact_mod_cast hn)]
    simp

/-- Only whole numbers of 53 bits times a power of two are read exactly. -/
theorem isWhole_of_reading {n : Int} {x : Float} (h : Double.reading x = (whole n).exactReading) :
    Double.IsWhole n.natAbs := by
  have hfloor := Double.isWhole_floor h
  rwa [Rat.floor_intCast] at hfloor

/-- What is the same exactly has the same double next to it. -/
theorem reading_congr {a b : Number} (h : a.exactReading = b.exactReading) :
    Scalar.reading a = Scalar.reading b := by
  cases a with
  | whole m =>
    cases b with
    | whole n =>
      obtain rfl : m = n := by exact_mod_cast (Reading.finite.inj h).2
      rfl
    | double y => exact (reading_whole (isWhole_of_reading h.symm)).trans h
  | double x =>
    cases b with
    | whole n => exact h.trans (reading_whole (isWhole_of_reading h)).symm
    | double y => exact h

/-- Beside a double, a number can be replaced by one of the other kind that is the same exactly. -/
theorem add_double_congr {a b : Number} (h : a.exactReading = b.exactReading) (z : Float) :
    a + double z = b + double z := by
  have hadd (a : Number) : a + double z = double (a.toDouble + z) := by cases a <;> rfl
  rw [hadd, hadd, Double.add_congr (reading_congr h) z]

/-- A number fits where one of the other kind does that is the same exactly. -/
theorem fits_congr {a b : Number} (h : a.exactReading = b.exactReading) :
    Scalar.fits a = Scalar.fits b := by
  have hwhole {n : Int} {x : Float} (h : (whole n).exactReading = (double x).exactReading) :
      Scalar.fits (whole n) = true := by
    have hreading : Scalar.reading (whole n) = (whole n).exactReading :=
      (reading_congr h).trans h.symm
    change (Scalar.reading (whole n)).isFinite = true
    rw [hreading]
    rfl
  cases a with
  | whole m =>
    cases b with
    | whole n =>
      obtain rfl : m = n := by exact_mod_cast (Reading.finite.inj h).2
      rfl
    | double y => exact hwhole h
  | double x =>
    cases b with
    | whole n => exact (hwhole h.symm).symm
    | double y => rfl

/-- So they have the same sum with a double, or none. -/
theorem sum_double_congr {a b : Number} (h : a.exactReading = b.exactReading) (z : Float) :
    Scalar.sum a (double z) = Scalar.sum b (double z) := by
  have hcombines (a : Number) : Scalar.combines a (double z) = Scalar.fits a := by
    change (_ && false || _ && true) = _
    rw [Bool.and_false, Bool.false_or, Bool.and_true]
  rw [Scalar.sum, Scalar.sum, hcombines, hcombines, fits_congr h, add_double_congr h]

/-- Numbers of one kind that are the same exactly have the same sums. -/
theorem sum_congr {a b : Number} (h : a.exactReading = b.exactReading)
    (hkind : a.isWhole = b.isWhole) (p : Number) : Scalar.sum a p = Scalar.sum b p := by
  cases a with
  | whole m =>
    cases b with
    | whole n =>
      obtain rfl : m = n := by exact_mod_cast (Reading.finite.inj h).2
      rfl
    | double y => contradiction
  | double x =>
    cases b with
    | whole n => contradiction
    | double y =>
      have hadd : double x + p = double y + p := by
        rw [double_add, double_add, Double.add_congr h]
      rw [Scalar.sum, Scalar.sum, hadd]
      rfl

/-- A whole number that fits has a sum with every number. -/
theorem sum_whole {p : Int} (hp : Scalar.fits (whole p) = true) (a : Number) :
    Scalar.sum a (whole p) = .ok (a + whole p) := by
  have hcombines : Scalar.combines a (whole p) = true := by
    cases a with
    | whole n => rfl
    | double x =>
      change (false || true && Scalar.fits (whole p)) = true
      rw [hp]
      rfl
  rw [Scalar.sum, if_pos hcombines]

theorem fits_of_isWhole {p : Int} (h : Double.IsWhole p.natAbs) :
    Scalar.fits (whole p) = true := by
  change (Scalar.reading (whole p)).isFinite = true
  rw [reading_whole h]
  rfl

theorem reading_whole_add_whole {n p : Int} {x : Float}
    (h : Double.reading x = (whole n).exactReading) (hp : Double.IsWhole p.natAbs) :
    Scalar.reading (whole n + whole p) = Scalar.reading (double x + whole p) := by
  have hn := isWhole_of_reading h
  have hsame : Double.reading (Float.ofInt n) = Double.reading x := (reading_whole hn).trans h.symm
  have hsum := Double.parts_eq_iff.mp (Double.parts_ofInt_add hn hp)
  exact hsum.symm.trans (congrArg Double.reading (Double.add_congr hsame _))

/-- Beside a whole number that a double holds, such a sum has the same double next to it. -/
theorem reading_add_whole_congr {a b : Number} (h : a.exactReading = b.exactReading) {p : Int}
    (hp : Double.IsWhole p.natAbs) :
    Scalar.reading (a + whole p) = Scalar.reading (b + whole p) := by
  cases a with
  | whole m =>
    cases b with
    | whole n =>
      obtain rfl : m = n := by exact_mod_cast (Reading.finite.inj h).2
      rfl
    | double y => exact reading_whole_add_whole h.symm hp
  | double x =>
    cases b with
    | whole n => exact (reading_whole_add_whole h hp).symm
    | double y => exact congrArg Double.reading (Double.add_congr h _)

end Number

end EntityDiagram
