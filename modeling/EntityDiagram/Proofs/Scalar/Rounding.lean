import EntityDiagram.Proofs.Scalar.WholeDoubles

/-! Products and quotients of doubles. Their exact value is cut off to a significand of 53 bits and
then rounded up at most by one, so no double lies between a product or a quotient and the double
that is its result. In particular a factor of at least one makes no positive double smaller, and
such a divisor makes none greater. -/
namespace EntityDiagram

namespace Double

open Float.Model (Format UnpackedFloat totalExponent)
open Float.Model.UnpackedFloat

/-- A value cut off to a significand with an exponent. Nothing is cut off exactly when both bits
beside the significand are zero. -/
structure Truncates (em : ExtendedMantissa) (e : Int) (value : Rat) : Prop where
  atLeast : (em.mantissa : Rat) * 2 ^ e ≤ value
  below : value < (em.mantissa + 1 : Rat) * 2 ^ e
  exact_iff : em.roundBit = false ∧ em.stickyBit = false ↔ value = (em.mantissa : Rat) * 2 ^ e

theorem truncates_exact (m : Nat) (e : Int) :
    Truncates ⟨m, false, false⟩ e ((m : Rat) * 2 ^ e) where
  atLeast := le_rfl
  below := by
    have hpow : (0 : Rat) < 2 ^ e := by positivity
    linarith
  exact_iff := by simp

/-- One more bit is cut off. -/
theorem Truncates.shiftRightOne {em : ExtendedMantissa} {e : Int} {value : Rat}
    (h : Truncates em e value) : Truncates em.shiftRightOne (e + 1) value := by
  obtain ⟨m, r, s⟩ := em
  obtain ⟨hatLeast, hbelow, hexact⟩ := h
  have hpow : (0 : Rat) < 2 ^ e := by positivity
  have hdouble : (2 : Rat) ^ (e + 1) = 2 * 2 ^ e := by rw [zpow_add_one₀ two_ne_zero, mul_comm]
  rcases Nat.even_or_odd' m with ⟨half, rfl | rfl⟩
  · have hhalf : 2 * half / 2 = half := by omega
    push_cast at hatLeast hbelow hexact
    refine ⟨?_, ?_, ?_⟩
    · simp only [ExtendedMantissa.shiftRightOne, hhalf, hdouble]
      linarith
    · simp only [ExtendedMantissa.shiftRightOne, hhalf, hdouble]
      linarith
    · have hvalue : (half : Rat) * (2 * 2 ^ e) = 2 * half * 2 ^ e := by ring
      simpa [ExtendedMantissa.shiftRightOne, hhalf, hdouble, hvalue] using hexact
  · have hhalf : (2 * half + 1) / 2 = half := by omega
    push_cast at hatLeast hbelow hexact
    refine ⟨?_, ?_, ?_⟩
    · simp only [ExtendedMantissa.shiftRightOne, hhalf, hdouble]
      linarith
    · simp only [ExtendedMantissa.shiftRightOne, hhalf, hdouble]
      linarith
    · have hless : value ≠ (half : Rat) * (2 * 2 ^ e) := by
        intro heq
        linarith
      simpa [ExtendedMantissa.shiftRightOne, hhalf, hdouble] using hless

theorem Truncates.shiftRight {em : ExtendedMantissa} {e : Int} {value : Rat}
    (h : Truncates em e value) (k : Nat) : Truncates (em >>> k) (e + k) value := by
  induction k with
  | zero => simpa [HShiftRight.hShiftRight, Nat.repeat] using h
  | succ k ih =>
    rw [Int.natCast_succ, ← Int.add_assoc]
    exact ih.shiftRightOne

/-- Rounding adds one at most, and nothing where nothing is cut off. -/
theorem roundedMantissa_cases (em : ExtendedMantissa) : em.roundedMantissa = em.mantissa ∨
    em.roundedMantissa = em.mantissa + 1 ∧ ¬(em.roundBit = false ∧ em.stickyBit = false) := by
  obtain ⟨m, r, s⟩ := em
  cases r <;> cases s <;>
    simp [ExtendedMantissa.roundedMantissa, ExtendedMantissa.accuracy,
      Accuracy.roundToNearestEven]
  omega

/-- A value and what stands for it, with no double between the two. -/
def Adjoins (value result : Rat) : Prop := ∀ n k : Nat, n < 2 ^ 53 →
  (scaled n k ≤ value → scaled n k ≤ result) ∧ (value ≤ scaled n k → result ≤ scaled n k)

theorem scaled_lt_scaled_iff {m n j : Nat} : scaled m j < scaled n j ↔ m < n := by
  rw [scaled_lt_iff]
  exact Nat.mul_lt_mul_right (by positivity)

theorem scaled_le_scaled_iff {m n j : Nat} : scaled m j ≤ scaled n j ↔ m ≤ n := by
  rw [← not_lt, scaled_lt_scaled_iff, not_lt]

theorem scaled_mul_pow (n i j : Nat) : scaled (n * 2 ^ i) j = scaled n (j + i) := by
  rw [scaled_eq, scaled_eq, Nat.mul_assoc, ← Nat.pow_add, Nat.add_comm i j]

/-- Rounding to a whole significand passes no double, where the significand has its leading bit or
the exponent is the least. -/
theorem Truncates.adjoins {em : ExtendedMantissa} {j : Nat} {value : Rat}
    (h : Truncates em (j - 1074) value) (hlead : j = 0 ∨ 2 ^ 52 ≤ em.mantissa) :
    Adjoins value (scaled em.roundedMantissa j) := by
  intro n k hn
  have hatLeast : scaled em.mantissa j ≤ value := by
    rw [scaled_eq_zpow]
    exact h.atLeast
  have hbelow : value < scaled (em.mantissa + 1) j := by
    rw [scaled_eq_zpow]
    exact_mod_cast h.below
  have hrounded : scaled em.mantissa j ≤ scaled em.roundedMantissa j := by
    rw [scaled_le_scaled_iff]
    rcases roundedMantissa_cases em with heq | ⟨heq, -⟩ <;> omega
  rcases Nat.lt_or_ge k j with hk | hk
  · have hless : scaled n k < scaled em.mantissa j :=
      scaled_lt_iff.mpr (mul_pow_lt_of_lt hn hlead hk)
    exact ⟨fun _ => (hless.le.trans hrounded), fun hle => absurd (hatLeast.trans hle) hless.not_ge⟩
  · -- A double of a greater exponent is a whole multiple of the last place.
    obtain ⟨i, rfl⟩ := Nat.exists_eq_add_of_le hk
    rw [← scaled_mul_pow]
    constructor
    · intro hle
      have hlt := scaled_lt_scaled_iff.mp (hle.trans_lt hbelow)
      exact (scaled_le_scaled_iff.mpr (Nat.le_of_lt_succ hlt)).trans hrounded
    · intro hle
      rcases roundedMantissa_cases em with heq | ⟨heq, hinexact⟩
      · rw [heq]
        exact hatLeast.trans hle
      · have hne : scaled em.mantissa j ≠ value := by
          rw [scaled_eq_zpow]
          exact fun heq => hinexact (h.exact_iff.mpr heq.symm)
        rw [heq, scaled_le_scaled_iff]
        exact scaled_lt_scaled_iff.mp ((lt_of_le_of_ne hatLeast hne).trans_le hle)

theorem mantissa_shiftRight (em : ExtendedMantissa) (k : Nat) :
    (em >>> k).mantissa = em.mantissa / 2 ^ k := by
  induction k with
  | zero => simp [HShiftRight.hShiftRight, Nat.repeat]
  | succ k ih =>
    change (em >>> k).mantissa / 2 = _
    rw [ih, Nat.div_div_eq_div_mul, Nat.pow_succ]

theorem mantissa_ofMantissaAndAccuracy (m : Nat) (a : Accuracy) :
    (ExtendedMantissa.ofMantissaAndAccuracy m a).mantissa = m := by
  rcases a with _ | (_ | _ | _) <;> rfl

/-- The first shift leaves 53 bits, fewer only at the least exponent. -/
theorem shifted_bounds {m k : Nat} {e : Int} {j : Nat}
    (htarget : Format.binary64.targetExponent (totalExponent m e) = (j : Int) - 1074)
    (hk : e + k = (j : Int) - 1074) :
    m / 2 ^ k < 2 ^ 53 ∧ (j = 0 ∨ 2 ^ 52 ≤ m / 2 ^ k) := by
  change max ((m.log2 : Int) + 1 + e - 53) (-1074) = _ at htarget
  have hpow : 0 < 2 ^ k := by positivity
  constructor
  · rw [Nat.div_lt_iff_lt_mul hpow, ← Nat.pow_add]
    exact Nat.lt_log2_self.trans_le (Nat.pow_le_pow_right two_pos (by omega))
  · rcases Nat.eq_zero_or_pos j with hj | hj
    · exact .inl hj
    · have hm : m ≠ 0 := by
        rintro rfl
        rw [Nat.log2_zero] at htarget
        omega
      right
      rw [Nat.le_div_iff_mul_le hpow, ← Nat.pow_add]
      exact (Nat.pow_le_pow_right two_pos (by omega)).trans (Nat.log2_self_le hm)

/-- A significand that fits stays where it is. -/
theorem shiftToTargetExponent_of_lt {n j : Nat} (h : n < 2 ^ 53) :
    shiftToTargetExponent .binary64 n ((j : Int) - 1074) .exact =
      (⟨n, false, false⟩, (j : Int) - 1074) := by
  have hlog : n.log2 ≤ 52 := by
    rcases Nat.eq_zero_or_pos n with rfl | hpos
    · decide
    · exact (significand_bounds hpos h).1
  have hshift : (Format.binary64.targetExponent (totalExponent n ((j : Int) - 1074)) -
      ((j : Int) - 1074)).toNat = 0 := by
    change (max ((n.log2 : Int) + 1 + ((j : Int) - 1074) - 53) (-1074) - _).toNat = 0
    omega
  rw [shiftToTargetExponent, shiftToExponent, hshift]
  simp [HShiftRight.hShiftRight, Nat.repeat, ExtendedMantissa.ofMantissaAndAccuracy]

/-- A significand that was rounded up to the next power of two moves one place higher, any other
stays where it is. -/
theorem exists_shiftToTargetExponent_eq {n j : Nat} (h : n ≤ 2 ^ 53) (hlead : j = 0 ∨ 2 ^ 52 ≤ n) :
    ∃ m k : Nat, m < 2 ^ 53 ∧ (k = 0 ∨ 2 ^ 52 ≤ m) ∧ scaled m k = scaled n j ∧
      shiftToTargetExponent .binary64 n ((j : Int) - 1074) .exact =
        (⟨m, false, false⟩, (k : Int) - 1074) := by
  rcases Nat.lt_or_ge n (2 ^ 53) with hlt | hge
  · exact ⟨n, j, hlt, hlead, rfl, shiftToTargetExponent_of_lt hlt⟩
  · obtain ⟨m, hm⟩ : ∃ m, m = 2 ^ 52 := ⟨_, rfl⟩
    obtain rfl : n = m * 2 ^ 1 := by omega
    have hexponent : (j : Int) - 1074 = ((j + 1 : Nat) : Int) - 1074 - (1 : Nat) := by omega
    refine ⟨m, j + 1, by omega, by omega, (scaled_mul_pow m 1 j).symm, ?_⟩
    rw [hexponent]
    exact shiftToTargetExponent_mul_pow (by omega) (by omega) (by omega)

/-- A significand with its exponent, or zero. -/
def ofScaled (s : Sign) (n j : Nat) : UnpackedFloat :=
  if h : n = 0 then .zero s else .finite s n (j - 1074) (Nat.pos_of_ne_zero h)

/-- What rounding makes of a value that is cut off low enough. -/
theorem exists_roundWithAccuracy_eq (s : Sign) {m : Nat} {e : Int} {a : Accuracy} {value : Rat}
    (h : Truncates (.ofMantissaAndAccuracy m a) e value)
    (he : e ≤ Format.binary64.targetExponent (totalExponent m e)) :
    ∃ n j : Nat, Adjoins value (scaled n j) ∧ n < 2 ^ 53 ∧ (j = 0 ∨ 2 ^ 52 ≤ n) ∧
      roundWithAccuracy .binary64 s m e a = ofScaled s n j := by
  obtain ⟨j, hj⟩ : ∃ j : Nat,
      Format.binary64.targetExponent (totalExponent m e) = (j : Int) - 1074 := by
    have hleast : -1074 ≤ Format.binary64.targetExponent (totalExponent m e) := le_max_right _ _
    exact ⟨(Format.binary64.targetExponent (totalExponent m e) + 1074).toNat, by omega⟩
  obtain ⟨k, hk⟩ : ∃ k : Nat, e + k = (j : Int) - 1074 := ⟨((j : Int) - 1074 - e).toNat, by omega⟩
  obtain ⟨hbound, hlead⟩ := shifted_bounds hj hk
  have hshifted := h.shiftRight k
  rw [hk] at hshifted
  have hfirst : shiftToTargetExponent .binary64 m e a =
      (ExtendedMantissa.ofMantissaAndAccuracy m a >>> k, (j : Int) - 1074) := by
    have hshift : ((j : Int) - 1074 - e).toNat = k := by omega
    rw [shiftToTargetExponent, hj, shiftToExponent, hshift, hk]
  have hmantissa : (ExtendedMantissa.ofMantissaAndAccuracy m a >>> k).mantissa = m / 2 ^ k := by
    rw [mantissa_shiftRight, mantissa_ofMantissaAndAccuracy]
  generalize ExtendedMantissa.ofMantissaAndAccuracy m a >>> k = em at hshifted hfirst hmantissa
  rw [← hmantissa] at hbound hlead
  have hrounded := roundedMantissa_cases em
  obtain ⟨n, i, hn, hi, hvalue, hsecond⟩ :=
    exists_shiftToTargetExponent_eq (n := em.roundedMantissa) (j := j) (by omega) (by omega)
  refine ⟨n, i, hvalue ▸ hshifted.adjoins hlead, hn, hi, ?_⟩
  unfold roundWithAccuracy
  simp only [hfirst, hsecond]
  rfl

/-- Beyond the greatest exponent there is only an infinity. -/
theorem unpack_pack_ofScaled (s : Sign) {n j : Nat} (hn : n < 2 ^ 53) (hlead : j = 0 ∨ 2 ^ 52 ≤ n) :
    unpack .binary64 (pack .binary64 (ofScaled s n j)) =
      if j ≤ 2045 then ofScaled s n j else .infinity s := by
  unfold ofScaled
  split_ifs with hzero hj hj
  · cases s <;> rfl
  · omega
  · rcases Nat.lt_or_ge n (2 ^ 52) with hsmall | hlarge
    · obtain rfl : j = 0 := by omega
      have hlog : n.log2 ≠ 52 := by
        have := (Nat.log2_lt hzero).mpr hsmall
        omega
      have hnat : (BitVec.ofNat 52 n).toNat = n := by
        rw [BitVec.toNat_ofNat, Nat.mod_eq_of_lt hsmall]
      have hne : BitVec.ofNat 52 n ≠ 0#52 := by
        intro heq
        rw [heq] at hnat
        exact hzero hnat.symm
      rw [pack_finite _ (by decide), if_neg hlog, unpack_packComponents, ofFields,
        if_neg (by decide), if_pos rfl, dif_neg hne, UnpackedFloat.finite.injEq, hnat]
      exact ⟨rfl, rfl, rfl⟩
    · exact unpack_pack_finite s hlarge hn (by omega) (by omega) _
  · have hgreat : 2048 ≤ ((j : Int) - 1074 + 1023 + 52).toNat + 1 := by omega
    change unpack .binary64 (if 2048 ≤ ((j : Int) - 1074 + 1023 + 52).toNat + 1 then
      packedInfinity .binary64 s else _) = _
    rw [if_pos hgreat]
    cases s <;> rfl

/-- A double that stands for a positive value: no positive double lies between the two. -/
def IsNextTo (value : Rat) (x : Float) : Prop := ∀ (y : Float) (negative : Bool) (bound : Rat),
  reading y = .finite negative bound → 0 < bound →
    (bound ≤ value → (reading y).place ≤ (reading x).place) ∧
    (value ≤ bound → (reading x).place ≤ (reading y).place)

theorem exists_parts_of_pos {x : Float} {negative : Bool} {value : Rat}
    (h : reading x = .finite negative value) (hpos : 0 < value) : ∃ m k : Nat, ∃ hm : 0 < m,
      m < 2 ^ 53 ∧ (k = 0 ∨ 2 ^ 52 ≤ m) ∧ k ≤ 2045 ∧ value = scaled m k ∧
        parts x = .finite .positive m (k - 1074) hm := by
  have hstands := standsFor_parts x
  rw [h] at hstands
  generalize hparts : parts x = u at hstands
  cases hstands with
  | zero s => exact absurd hpos (lt_irrefl _)
  | @finite s m k hm hbound hlead =>
    have hk := exponent_le_of_parts hm hparts
    cases s with
    | positive => exact ⟨m, k, hm, hbound, hlead, by omega, rfl, rfl⟩
    | negative =>
      have hvalue := scaled_pos (k := k) hm
      simp only [signed, isNegative, if_true] at hpos
      linarith

theorem reading_of_ofScaled {x : Float} {n j : Nat} (h : parts x = ofScaled .positive n j) :
    reading x = .finite false (scaled n j) := by
  unfold ofScaled at h
  split_ifs at h with hn
  · have hstands := standsFor_parts x
    rw [h] at hstands
    generalize reading x = r at hstands
    cases hstands with
    | zero _ => rw [scaled_eq_zero_iff.mpr hn]; rfl
  · rw [reading_of_parts _ h, scaled_eq_zpow]
    rfl

theorem reading_of_infinity {x : Float} {s : Sign} (h : parts x = .infinity s) :
    reading x = .infinite (isNegative s) := by
  have hstands := standsFor_parts x
  rw [h] at hstands
  generalize reading x = r at hstands
  cases hstands with
  | infinite _ => rfl

/-- Rounding a value and packing it gives the double next to it. -/
theorem isNextTo_of_parts {x : Float} {m : Nat} {e : Int} {a : Accuracy} {value : Rat}
    (h : Truncates (.ofMantissaAndAccuracy m a) e value)
    (he : e ≤ Format.binary64.targetExponent (totalExponent m e))
    (hx : parts x =
      unpack .binary64 (pack .binary64 (roundWithAccuracy .binary64 .positive m e a))) :
    reading x ≠ .undefined ∧ IsNextTo value x := by
  obtain ⟨n, j, hadjoins, hn, hlead, hround⟩ := exists_roundWithAccuracy_eq .positive h he
  rw [hround, unpack_pack_ofScaled _ hn hlead] at hx
  split_ifs at hx with hj
  · have hreading := reading_of_ofScaled hx
    refine ⟨by rw [hreading]; exact Reading.noConfusion, ?_⟩
    intro y negative bound hy hpos
    obtain ⟨m, k, -, hm, -, -, rfl, -⟩ := exists_parts_of_pos hy hpos
    simpa [hy, hreading, Reading.place] using hadjoins m k hm
  · have hreading := reading_of_infinity hx
    refine ⟨by rw [hreading]; exact Reading.noConfusion, ?_⟩
    intro y negative bound hy hpos
    obtain ⟨m, k, -, hm, -, hk, rfl, -⟩ := exists_parts_of_pos hy hpos
    -- The rounded value is beyond every finite double.
    have hbeyond : scaled m k < scaled n j :=
      scaled_lt_iff.mpr (mul_pow_lt_of_lt hm hlead (by omega))
    constructor
    · intro _
      rw [hy, hreading]
      simp [Reading.place, isNegative]
    · intro hle
      exact absurd ((hadjoins m k hm).2 hle) hbeyond.not_ge

theorem targetExponent_eq (m : Nat) (e : Int) : Format.binary64.targetExponent (totalExponent m e) =
    max ((m.log2 : Int) + 1 + e - 53) (-1074) := rfl

/-- The product of positive doubles is the double next to the exact product. -/
theorem isNextTo_mul {x y : Float} {a b : Bool} {v w : Rat} (hx : reading x = .finite a v)
    (hv : 0 < v) (hy : reading y = .finite b w) (hw : 0 < w) :
    reading (x * y) ≠ .undefined ∧ IsNextTo (v * w) (x * y) := by
  obtain ⟨m, k, hm, hmbound, hmlead, -, rfl, hmparts⟩ := exists_parts_of_pos hx hv
  obtain ⟨n, l, hn, hnbound, hnlead, -, rfl, hnparts⟩ := exists_parts_of_pos hy hw
  have hvalue : scaled m k * scaled n l =
      ((m * n : Nat) : Rat) * 2 ^ (((k : Int) - 1074) + ((l : Int) - 1074)) := by
    rw [scaled_eq_zpow, scaled_eq_zpow, zpow_add₀ two_ne_zero]
    push_cast
    ring
  have hproduct := parts_mul x y
  rw [hmparts, hnparts] at hproduct
  rw [hvalue]
  refine isNextTo_of_parts (truncates_exact _ _) ?_ hproduct
  rw [targetExponent_eq]
  by_cases hboth : k = 0 ∧ l = 0
  · omega
  · -- One factor has its leading bit, and so the product has 53 bits.
    have hlarge : 2 ^ 52 ≤ m * n := by
      rcases (by omega : 2 ^ 52 ≤ m ∨ 2 ^ 52 ≤ n) with h | h
      · exact h.trans (Nat.le_mul_of_pos_right m hn)
      · exact h.trans (Nat.le_mul_of_pos_left n hm)
    have hlog : 52 ≤ (m * n).log2 := (Nat.le_log2 (by omega)).mpr hlarge
    omega

theorem parts_div (x y : Float) : parts (x / y) =
    unpack .binary64 (pack .binary64 (UnpackedFloat.div .binary64 (parts x) (parts y))) := rfl

/-- Half of a finite double is defined. -/
theorem reading_half_ne_undefined {x : Float} {negative : Bool} {value : Rat}
    (h : reading x = .finite negative value) : reading (x / Float.ofInt 2) ≠ .undefined := by
  rw [Ne, reading_eq_undefined_iff, parts_div]
  apply unpack_pack_ne_notANumber
  have htwo : parts (Float.ofInt 2) = .finite .positive (2 ^ 52) (-51) (by decide) := rfl
  have hu := standsFor_parts x
  rw [h] at hu
  rw [htwo]
  generalize parts x = u at hu
  cases hu with
  | zero s => exact UnpackedFloat.noConfusion
  | finite s _ _ _ => exact roundWithAccuracy_ne_notANumber _ _ _ _

/-- A quotient with remainder cuts off the exact quotient. -/
theorem truncates_quotient (m : Nat) {n : Nat} (hn : 0 < n) (e : Int) :
    Truncates (.ofMantissaAndAccuracy (m / n) (accuracyOfFraction (m % n) n)) e
      ((m : Rat) / n * 2 ^ e) := by
  have hpow : (0 : Rat) < 2 ^ e := by positivity
  have hcast : (0 : Rat) < n := by exact_mod_cast hn
  have hsplit : (m : Rat) = n * (m / n : Nat) + (m % n : Nat) := by
    exact_mod_cast (Nat.div_add_mod m n).symm
  have hless : ((m % n : Nat) : Rat) < n := by exact_mod_cast Nat.mod_lt m hn
  have hquotient : (m : Rat) / n = (m / n : Nat) + (m % n : Nat) / n := by
    field_simp
    exact hsplit
  have hfraction : ((m % n : Nat) : Rat) / n < 1 := (div_lt_one hcast).mpr hless
  refine ⟨?_, ?_, ?_⟩
  · rw [mantissa_ofMantissaAndAccuracy, hquotient]
    have hnonneg : (0 : Rat) ≤ ((m % n : Nat) : Rat) / n := by positivity
    nlinarith
  · rw [mantissa_ofMantissaAndAccuracy, hquotient]
    nlinarith
  · rw [mantissa_ofMantissaAndAccuracy, hquotient]
    by_cases hrem : m % n = 0
    · simp [hrem, accuracyOfFraction, ExtendedMantissa.ofMantissaAndAccuracy]
    · have hpositive : (0 : Rat) < (m % n : Nat) / n :=
        div_pos (by exact_mod_cast Nat.pos_of_ne_zero hrem) hcast
      have hne : ((m / n : Nat) + (m % n : Nat) / n : Rat) * 2 ^ e ≠ (m / n : Nat) * 2 ^ e := by
        intro heq
        nlinarith
      simp only [hne, iff_false, accuracyOfFraction, if_neg hrem]
      cases compare (2 * (m % n)) n <;> simp [ExtendedMantissa.ofMantissaAndAccuracy]

/-- A quotient of significands that is shifted far enough has its leading bit. -/
theorem le_mul_pow_div {m n i : Nat} (hm : 0 < m) (hn : 0 < n) (h : 53 + n.log2 ≤ m.log2 + i) :
    2 ^ 52 ≤ m * 2 ^ i / n := by
  rw [Nat.le_div_iff_mul_le hn]
  calc 2 ^ 52 * n ≤ 2 ^ 52 * 2 ^ (n.log2 + 1) := Nat.mul_le_mul_left _ Nat.lt_log2_self.le
    _ = 2 ^ (53 + n.log2) := by rw [← Nat.pow_add]; congr 1; omega
    _ ≤ 2 ^ (m.log2 + i) := Nat.pow_le_pow_right two_pos h
    _ = 2 ^ m.log2 * 2 ^ i := Nat.pow_add _ _ _
    _ ≤ m * 2 ^ i := Nat.mul_le_mul_right _ (Nat.log2_self_le hm.ne')

/-- The quotient of positive doubles is the double next to the exact quotient. -/
theorem isNextTo_div {x y : Float} {a b : Bool} {v w : Rat} (hx : reading x = .finite a v)
    (hv : 0 < v) (hy : reading y = .finite b w) (hw : 0 < w) :
    reading (x / y) ≠ .undefined ∧ IsNextTo (v / w) (x / y) := by
  obtain ⟨m, k, hm, hmbound, hmlead, -, rfl, hmparts⟩ := exists_parts_of_pos hx hv
  obtain ⟨n, l, hn, hnbound, hnlead, -, rfl, hnparts⟩ := exists_parts_of_pos hy hw
  have hquotient := parts_div x y
  rw [hmparts, hnparts] at hquotient
  obtain ⟨t, ht⟩ : ∃ t : Int, t = min ((k : Int) - 1074 - (l - 1074))
      (Format.binary64.targetExponent
        (totalExponent m ((k : Int) - 1074) - totalExponent n ((l : Int) - 1074))) := ⟨_, rfl⟩
  obtain ⟨i, hi⟩ : ∃ i : Nat, (k : Int) - 1074 - (l - 1074) - t = i :=
    ⟨((k : Int) - 1074 - (l - 1074) - t).toNat, by omega⟩
  have hdiv : UnpackedFloat.div .binary64 (.finite .positive m (k - 1074) hm)
      (.finite .positive n (l - 1074) hn) = roundWithAccuracy .binary64 .positive (m * 2 ^ i / n) t
        (accuracyOfFraction (m * 2 ^ i % n) n) := by
    simp only [UnpackedFloat.div, divCore, ← ht, hi, Int.toNat_natCast, Nat.shiftLeft_eq]
    rfl
  have hvalue : scaled m k / scaled n l = ((m * 2 ^ i : Nat) : Rat) / n * 2 ^ t := by
    have hsum : (k : Int) - 1074 = i + t + (l - 1074) := by omega
    rw [scaled_eq_zpow, scaled_eq_zpow, hsum, zpow_add₀ two_ne_zero, zpow_add₀ two_ne_zero,
      zpow_natCast]
    push_cast
    field_simp
  rw [hdiv] at hquotient
  rw [hvalue]
  refine isNextTo_of_parts (truncates_quotient _ hn t) ?_ hquotient
  change t = min _ (max ((m.log2 : Int) + 1 + (k - 1074) - (n.log2 + 1 + (l - 1074)) - 53) (-1074))
    at ht
  rw [targetExponent_eq]
  by_cases hleast : t ≤ -1074
  · omega
  · have hlarge := le_mul_pow_div (m := m) (n := n) (i := i) hm hn (by omega)
    have hlog : 52 ≤ (m * 2 ^ i / n).log2 := (Nat.le_log2 (by omega)).mpr hlarge
    omega

/-- A factor of at least one makes no positive double smaller. -/
theorem le_mul_of_one_le {x y : Float} {a b : Bool} {v w : Rat} (hx : reading x = .finite a v)
    (hv : 0 < v) (hy : reading y = .finite b w) (hw : 1 ≤ w) :
    reading (x * y) ≠ .undefined ∧ (reading x).place ≤ (reading (x * y)).place := by
  obtain ⟨hdefined, hnext⟩ := isNextTo_mul hx hv hy (by linarith)
  exact ⟨hdefined, (hnext x a v hx hv).1 (le_mul_of_one_le_right hv.le hw)⟩

/-- A divisor of at least one makes no positive double greater. -/
theorem div_le_of_one_le {x y : Float} {a b : Bool} {v w : Rat} (hx : reading x = .finite a v)
    (hv : 0 < v) (hy : reading y = .finite b w) (hw : 1 ≤ w) :
    reading (x / y) ≠ .undefined ∧ (reading (x / y)).place ≤ (reading x).place := by
  obtain ⟨hdefined, hnext⟩ := isNextTo_div hx hv hy (by linarith)
  exact ⟨hdefined, (hnext x a v hx hv).2 (div_le_self hv.le hw)⟩

end Double

end EntityDiagram
