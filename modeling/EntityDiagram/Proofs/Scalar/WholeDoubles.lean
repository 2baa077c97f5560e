import EntityDiagram.Proofs.Scalar.Order

/-! Whole numbers among the doubles. A whole number that is a significand of 53 bits times a power
of two is converted without loss; the whole part of a finite double is such a number. So a number
that was rounded half up is finite, and a whole number that equals a double is kept as that double.
-/
namespace EntityDiagram

namespace Double

open Float.Model (UnpackedFloat totalExponent)
open Float.Model.UnpackedFloat

/-- A shift to the right loses nothing of a multiple of its power of two. -/
theorem mul_pow_shiftRight (m j : Nat) :
    (⟨m * 2 ^ j, false, false⟩ : ExtendedMantissa) >>> j = ⟨m, false, false⟩ := by
  induction j generalizing m with
  | zero => simp [HShiftRight.hShiftRight, Nat.repeat]
  | succ j ih =>
    change ExtendedMantissa.shiftRightOne
      ((⟨m * 2 ^ (j + 1), false, false⟩ : ExtendedMantissa) >>> j) = _
    have hpow : m * 2 ^ (j + 1) = m * 2 * 2 ^ j := by ring
    rw [hpow, ih]
    simp [ExtendedMantissa.shiftRightOne]

variable {m j : Nat} {e : Int}

/-- The leading bit of a shifted significand. -/
theorem log2_mul_pow (h : 0 < m) : (m * 2 ^ j).log2 = m.log2 + j := by
  have hpos : 0 < 2 ^ j := by positivity
  rw [Nat.log2_eq_iff (Nat.mul_pos h hpos).ne', Nat.add_right_comm, Nat.pow_add, Nat.pow_add]
  exact ⟨Nat.mul_le_mul_right _ (Nat.log2_self_le h.ne'),
    Nat.mul_lt_mul_of_pos_right Nat.lt_log2_self hpos⟩

/-- A significand with its leading bit stands at its target exponent once it is shifted back. -/
theorem shiftToTargetExponent_mul_pow (hlead : 2 ^ 52 ≤ m) (hbound : m < 2 ^ 53)
    (he : -1074 ≤ e) : shiftToTargetExponent .binary64 (m * 2 ^ j) (e - j) .exact =
      (⟨m, false, false⟩, e) := by
  have hlog : (m * 2 ^ j).log2 = 52 + j := by
    rw [log2_mul_pow (by omega), (Nat.log2_eq_iff (by omega)).mpr ⟨hlead, hbound⟩]
  have htarget :
      Float.Model.Format.binary64.targetExponent (totalExponent (m * 2 ^ j) (e - j)) = e := by
    change max (((m * 2 ^ j).log2 : Int) + 1 + (e - j) - 53) (-1074) = e
    rw [hlog]
    omega
  have hshift : (e - (e - j)).toNat = j := by omega
  rw [shiftToTargetExponent, htarget, shiftToExponent, hshift]
  simp only [ExtendedMantissa.ofMantissaAndAccuracy, mul_pow_shiftRight, Prod.mk.injEq, true_and]
  omega

/-- Rounding keeps what fits. -/
theorem roundWithAccuracy_mul_pow (s : Sign) (hlead : 2 ^ 52 ≤ m) (hbound : m < 2 ^ 53)
    (he : -1074 ≤ e) : roundWithAccuracy .binary64 s (m * 2 ^ j) (e - j) .exact =
      .finite s m e (by omega) := by
  have hagain := shiftToTargetExponent_mul_pow (j := 0) hlead hbound he
  rw [Nat.pow_zero, Nat.mul_one, Int.natCast_zero, Int.sub_zero] at hagain
  have hrounded : (⟨m, false, false⟩ : ExtendedMantissa).roundedMantissa = m := rfl
  unfold roundWithAccuracy
  simp only [shiftToTargetExponent_mul_pow hlead hbound he, hrounded, hagain]
  rw [dif_neg (by omega)]

theorem unpack_pack_finite (s : Sign) (hlead : 2 ^ 52 ≤ m) (hbound : m < 2 ^ 53)
    (hleast : -1074 ≤ e) (hgreatest : e ≤ 971) (h : 0 < m) :
    unpack .binary64 (pack .binary64 (.finite s m e h)) = .finite s m e h := by
  have hfields : UnpackedFloat.finite s m e h =
      ofFields s (BitVec.ofNat 11 (e + 1075).toNat) (BitVec.ofNat 52 (m - 2 ^ 52)) := by
    have hexponent : (BitVec.ofNat 11 (e + 1075).toNat).toNat = (e + 1075).toNat := by
      rw [BitVec.toNat_ofNat, Nat.mod_eq_of_lt (by omega)]
    have hsignificand : (BitVec.ofNat 52 (m - 2 ^ 52)).toNat = m - 2 ^ 52 := by
      rw [BitVec.toNat_ofNat, Nat.mod_eq_of_lt (by omega)]
    have hmax : BitVec.ofNat 11 (e + 1075).toNat ≠ -1#11 := by
      intro heq
      rw [← BitVec.toNat_inj, hexponent] at heq
      have hall : (-1#11 : BitVec 11).toNat = 2047 := by decide
      omega
    have hmin : BitVec.ofNat 11 (e + 1075).toNat ≠ 0#11 := by
      intro heq
      rw [← BitVec.toNat_inj, hexponent] at heq
      have hnone : (0#11 : BitVec 11).toNat = 0 := by decide
      omega
    rw [ofFields, if_neg hmax, if_neg hmin, UnpackedFloat.finite.injEq, toNat_leading_append,
      hexponent, hsignificand]
    refine ⟨rfl, ?_, ?_⟩ <;> omega
  rw [hfields, unpack_pack_ofFields]

theorem parts_mul (x y : Float) : parts (x * y) =
    unpack .binary64 (pack .binary64 (UnpackedFloat.mul .binary64 (parts x) (parts y))) := rfl

theorem parts_neg (x : Float) : parts (-x) = (parts x).neg := by
  change unpack .binary64 (pack .binary64 (parts x).neg) = (parts x).neg
  rw [unpack_pack_neg, unpack_pack_parts]

/-- A whole number below `2 ^ 53`, shifted until its leading bit is in its place. -/
theorem significand_bounds {n : Nat} (h : 0 < n) (hbound : n < 2 ^ 53) :
    n.log2 ≤ 52 ∧ 2 ^ 52 ≤ n * 2 ^ (52 - n.log2) ∧ n * 2 ^ (52 - n.log2) < 2 ^ 53 := by
  have hlog : n.log2 ≤ 52 := Nat.le_of_lt_succ ((Nat.log2_lt h.ne').mpr hbound)
  refine ⟨hlog, ?_, ?_⟩
  · calc 2 ^ 52 = 2 ^ n.log2 * 2 ^ (52 - n.log2) := by rw [← Nat.pow_add]; congr 1; omega
      _ ≤ n * 2 ^ (52 - n.log2) := Nat.mul_le_mul_right _ (Nat.log2_self_le h.ne')
  · calc n * 2 ^ (52 - n.log2) < 2 ^ (n.log2 + 1) * 2 ^ (52 - n.log2) :=
          Nat.mul_lt_mul_of_pos_right Nat.lt_log2_self (by positivity)
      _ = 2 ^ 53 := by rw [← Nat.pow_add]; congr 1; omega

theorem round_whole {n : Nat} (h : 0 < n) (hbound : n < 2 ^ 53) :
    UnpackedFloat.round .binary64 .positive n 0 =
      .finite .positive (n * 2 ^ (52 - n.log2)) (n.log2 - 52) (by positivity) := by
  obtain ⟨hlog, hlead, hbelow⟩ := significand_bounds h hbound
  have htarget : Float.Model.Format.binary64.targetExponent (totalExponent n 0) = n.log2 - 52 := by
    change max ((n.log2 : Int) + 1 + 0 - 53) (-1074) = n.log2 - 52
    omega
  have hshift : ((0 : Int) - (n.log2 - 52)).toNat = 52 - n.log2 := by omega
  have hexponent : (0 : Int) - ((52 - n.log2 : Nat) : Int) = n.log2 - 52 := by omega
  have hrounded :=
    roundWithAccuracy_mul_pow (j := 0) (e := (n.log2 : Int) - 52) .positive hlead hbelow
    (by omega)
  rw [Nat.pow_zero, Nat.mul_one, Int.natCast_zero, Int.sub_zero] at hrounded
  unfold UnpackedFloat.round
  simp only [htarget, decreaseExponent, hshift, hexponent, Nat.shiftLeft_eq, hrounded]

theorem normalize_of_pos {n : Nat} (h : 0 < n) (e : Int) :
    UnpackedFloat.normalize .binary64 n e .positive =
      UnpackedFloat.round .binary64 .positive n e := by
  unfold UnpackedFloat.normalize
  rw [compare_gt_iff_gt.mpr (by omega)]
  rfl

theorem parts_one : parts (Float.ofBits 0x3FF0000000000000) =
    .finite .positive (2 ^ 52) (-52) (by decide) := by
  rfl

/-- A whole number below `2 ^ 53` is multiplied by one when it is converted. -/
theorem parts_ofNat_of_lt {n : Nat} (h : 0 < n) (hbound : n < 2 ^ 53) : parts (Float.ofNat n) =
    .finite .positive (n * 2 ^ (52 - n.log2)) (n.log2 - 52) (by positivity) := by
  have hproduct : Float.ofNat n = n.toUInt64.toFloat * Float.ofBits 0x3FF0000000000000 := by
    change (if h : n < 2 ^ 53 ∧ 0 ≤ 22 then _ else _) = _
    rw [dif_pos ⟨hbound, by decide⟩]
    rfl
  have hnat : n.toUInt64.toNat = n := UInt64.toNat_ofNat_of_lt (hbound.trans (by decide))
  obtain ⟨hlog, hlead, hbelow⟩ := significand_bounds h hbound
  have hwhole : parts n.toUInt64.toFloat =
      .finite .positive (n * 2 ^ (52 - n.log2)) (n.log2 - 52) (by positivity) := by
    change unpack .binary64 (pack .binary64
      (UnpackedFloat.normalize .binary64 (n.toUInt64.toNat : Int) 0 .positive)) = _
    rw [hnat, normalize_of_pos h, round_whole h hbound, unpack_pack_finite] <;> omega
  have hproductParts : UnpackedFloat.mul .binary64
      (.finite .positive (n * 2 ^ (52 - n.log2)) (n.log2 - 52) (by positivity))
      (.finite .positive (2 ^ 52) (-52) (by decide)) =
        .finite .positive (n * 2 ^ (52 - n.log2)) (n.log2 - 52) (by positivity) :=
    roundWithAccuracy_mul_pow (j := 52) .positive hlead hbelow (by omega)
  rw [hproduct, parts_mul, hwhole, parts_one, hproductParts, unpack_pack_finite] <;> omega

/-- A greater whole number is shifted and rounded. -/
theorem parts_ofNat_of_le {n : Nat} (h : 2 ^ 53 ≤ n) : parts (Float.ofNat n) = unpack .binary64
    (pack .binary64 (roundWithAccuracy .binary64 .positive (n * 2 ^ 53) (-53) .exact)) := by
  have hconverted : parts (Float.ofNat n) =
      unpack .binary64 (pack .binary64 (UnpackedFloat.ofScientific .binary64 n 0)) := by
    change parts (if h : n < 2 ^ 53 ∧ 0 ≤ 22 then _ else _) = _
    rw [dif_neg fun hlt => Nat.not_lt.mpr h hlt.1]
    rfl
  have hshifted : UnpackedFloat.ofScientific .binary64 n 0 =
      roundWithAccuracy .binary64 .positive (n * 2 ^ 53) (-53) .exact := by
    have hmantissa : n * 2 ^ 53 = n <<< 53 * 1 := by rw [Nat.shiftLeft_eq, Nat.mul_one]
    unfold UnpackedFloat.ofScientific
    rw [dif_neg (by omega), if_neg (by decide), if_neg (by simp), if_pos (by decide), hmantissa]
    rfl
  rw [hconverted, hshifted]

/-- It is a significand times a power of two when its other bits are zero. -/
theorem parts_ofNat_mul_pow (hlead : 2 ^ 52 ≤ m) (hbound : m < 2 ^ 53) (hj : 0 < j ∧ j ≤ 971) :
    parts (Float.ofNat (m * 2 ^ j)) = .finite .positive m j (by omega) := by
  have hle : 2 ^ 53 ≤ m * 2 ^ j := by
    have hpow : 2 ≤ 2 ^ j := Nat.le_self_pow (by omega) 2
    nlinarith
  have hexponent : (-53 : Int) = (j : Int) - (j + 53 : Nat) := by omega
  rw [parts_ofNat_of_le hle, Nat.mul_assoc, ← Nat.pow_add, hexponent,
    roundWithAccuracy_mul_pow .positive hlead hbound (by omega), unpack_pack_finite] <;> omega

/-- A significand of 53 bits times a power of two, within the range of the doubles. -/
def IsWhole (n : Nat) : Prop := ∃ m j, m < 2 ^ 53 ∧ j ≤ 971 ∧ n = m * 2 ^ j

theorem isWhole_of_lt {n : Nat} (h : n < 2 ^ 53) : IsWhole n :=
  ⟨n, 0, h, by decide, by omega⟩

theorem scaled_eq_zpow (m k : Nat) : scaled m k = m * (2 : Rat) ^ ((k : Int) - 1074) := by
  rw [scaled_eq, zpow_sub₀ two_ne_zero, zpow_natCast, zpow_ofNat, ← mul_div_assoc]
  push_cast
  rfl

theorem scaled_whole (m j : Nat) : scaled m (j + 1074) = ((m * 2 ^ j : Nat) : Rat) := by
  have hexponent : ((j + 1074 : Nat) : Int) - 1074 = j := by omega
  rw [scaled_eq_zpow, hexponent, zpow_natCast]
  push_cast
  rfl

theorem reading_of_parts {x : Float} {s : Sign} (hm : 0 < m) (h : parts x = .finite s m e hm) :
    reading x = .finite (isNegative s) (signed s (m * (2 : Rat) ^ e)) := by
  have hstands := standsFor_parts x
  rw [h] at hstands
  generalize reading x = r at hstands
  cases hstands with
  | finite _ _ hbound hlead => rw [scaled_eq_zpow]

/-- Such a whole number is converted without loss. -/
theorem reading_ofNat {n : Nat} (h : IsWhole n) : reading (Float.ofNat n) = .finite false n := by
  obtain ⟨m, j, hbound, hj, rfl⟩ := h
  rcases Nat.eq_zero_or_pos (m * 2 ^ j) with hzero | hpos
  · rw [hzero]
    decide +kernel
  by_cases hlt : m * 2 ^ j < 2 ^ 53
  · generalize m * 2 ^ j = n at hpos hlt
    obtain ⟨hlog, -, -⟩ := significand_bounds hpos hlt
    have hexponent : (n.log2 : Int) - 52 = -((52 - n.log2 : Nat) : Int) := by omega
    rw [reading_of_parts _ (parts_ofNat_of_lt hpos hlt), hexponent, zpow_neg, zpow_natCast]
    have hpow : (2 : Rat) ^ (52 - n.log2) ≠ 0 := by positivity
    simp [isNegative, signed, hpow]
  · have hm : 0 < m := Nat.pos_of_ne_zero (by rintro rfl; simp at hpos)
    obtain ⟨hlog, hlead, hbelow⟩ := significand_bounds hm hbound
    -- The number is too great to be shifted to its place with no power of two left.
    have hshift : 52 - m.log2 < j := by
      have hlt' : 2 ^ 53 < 2 ^ (m.log2 + 1 + j) := by
        calc 2 ^ 53 ≤ m * 2 ^ j := Nat.le_of_not_lt hlt
          _ < 2 ^ (m.log2 + 1) * 2 ^ j :=
            Nat.mul_lt_mul_of_pos_right Nat.lt_log2_self (by positivity)
          _ = 2 ^ (m.log2 + 1 + j) := (Nat.pow_add _ _ _).symm
      have := (Nat.pow_lt_pow_iff_right (by decide)).mp hlt'
      omega
    have hsplit : m * 2 ^ j = m * 2 ^ (52 - m.log2) * 2 ^ (j - (52 - m.log2)) := by
      rw [Nat.mul_assoc, ← Nat.pow_add]
      congr 2
      omega
    rw [hsplit, reading_of_parts _ (parts_ofNat_mul_pow hlead hbelow (by omega)), zpow_natCast]
    simp [isNegative, signed]

theorem exists_reading_neg {x : Float} {negative : Bool} {value : Rat}
    (h : reading x = .finite negative value) : ∃ other, reading (-x) = .finite other (-value) := by
  have hopposite := parts_neg x
  have hstands := standsFor_parts x
  rw [h] at hstands
  generalize parts x = u at hopposite hstands
  cases hstands with
  | zero s =>
    obtain ⟨other, hzero⟩ := isZero_iff.mpr ⟨-s, hopposite⟩
    exact ⟨other, by simpa using hzero⟩
  | @finite s m k hm hbound hlead =>
    refine ⟨isNegative (-s), ?_⟩
    rw [reading_of_parts hm hopposite, scaled_eq_zpow]
    cases s
    · simp [signed, isNegative]
    · simp [signed, isNegative]

/-- A negative whole number is converted like its opposite. -/
theorem exists_reading_ofInt {n : Int} (h : IsWhole n.natAbs) :
    ∃ negative, reading (Float.ofInt n) = .finite negative n := by
  cases n with
  | ofNat n => exact ⟨false, reading_ofNat h⟩
  | negSucc n =>
    obtain ⟨other, hother⟩ := exists_reading_neg (reading_ofNat (n := n + 1) h)
    exact ⟨other, hother⟩

theorem exponent_le_of_parts {x : Float} {s : Sign} (hm : 0 < m) (h : parts x = .finite s m e hm) :
    e ≤ 971 := by
  obtain ⟨t, hfields⟩ := parts_eq_ofFields x
  rw [h, ofFields] at hfields
  have hlt := (exponent x.toBits.toBitVec).isLt
  split_ifs at hfields with hmax hzero hmin
  · rw [UnpackedFloat.finite.injEq, hmin] at hfields
    have hnone : (0#11 : BitVec 11).toNat = 0 := by decide
    omega
  · rw [UnpackedFloat.finite.injEq] at hfields
    have hne : (exponent x.toBits.toBitVec).toNat ≠ 2047 := by
      intro heq
      exact hmax (BitVec.toNat_inj.mp heq)
    omega

theorem natAbs_floor_signed_lt (s : Sign) {value : Rat} (hnonneg : 0 ≤ value)
    (hbound : value < 2 ^ 52) : (signed s value).floor.natAbs < 2 ^ 53 := by
  have hlow : -(2 ^ 52 : Int) ≤ (signed s value).floor := by
    rw [Rat.le_floor_iff]
    unfold signed
    split_ifs <;> push_cast <;> linarith
  have hhigh : (signed s value).floor < (2 ^ 52 : Int) := by
    rw [Rat.floor_lt_iff]
    unfold signed
    split_ifs <;> push_cast <;> linarith
  omega

/-- The whole part of a finite double is converted without loss: either the double has no other
part, or it is small. -/
theorem isWhole_floor {x : Float} {negative : Bool} {value : Rat}
    (h : reading x = .finite negative value) : IsWhole value.floor.natAbs := by
  have hstands := standsFor_parts x
  rw [h] at hstands
  generalize hparts : parts x = u at hstands
  cases hstands with
  | zero s => exact isWhole_of_lt (by decide)
  | @finite s m k hm hbound hlead =>
    have hgreatest := exponent_le_of_parts hm hparts
    rcases Nat.lt_or_ge k 1074 with hk | hk
    · apply isWhole_of_lt
      apply natAbs_floor_signed_lt s (scaled_pos hm).le
      have hlt : scaled m k < scaled (2 ^ 52) (0 + 1074) :=
        scaled_lt_iff.mpr (mul_pow_lt_of_lt hbound (.inr le_rfl) hk)
      rw [scaled_whole] at hlt
      exact_mod_cast hlt
    · obtain ⟨j, rfl⟩ := Nat.exists_eq_add_of_le' hk
      refine ⟨m, j, hbound, by omega, ?_⟩
      have hsigned : ∃ n : Int, signed s (scaled m (j + 1074)) = n ∧ n.natAbs = m * 2 ^ j := by
        rw [scaled_whole]
        cases s
        · exact ⟨-(m * 2 ^ j : Nat), by simp [signed, isNegative], by rw [Int.natAbs_neg]; rfl⟩
        · exact ⟨(m * 2 ^ j : Nat), by simp [signed, isNegative], rfl⟩
      obtain ⟨n, hvalue, hn⟩ := hsigned
      rw [hvalue, Rat.floor_intCast, hn]

theorem parts_add (x y : Float) : parts (x + y) =
    unpack .binary64 (pack .binary64 (UnpackedFloat.add .binary64 (parts x) (parts y))) := rfl

/-- An infinity, or what is not a number. -/
def IsUnbounded (u : UnpackedFloat) : Prop := u = .notANumber ∨ ∃ s, u = .infinity s

theorem not_isUnbounded_of_reading {x : Float} {negative : Bool} {value : Rat}
    (h : reading x = .finite negative value) : ¬IsUnbounded (parts x) := by
  have hreads := readsAs_parts x
  rw [h] at hreads
  rintro (hparts | ⟨s, hparts⟩)
  · rw [hparts] at hreads
    contradiction
  · rw [hparts] at hreads
    contradiction

theorem IsUnbounded.unpack_pack {u : UnpackedFloat} (hu : IsUnbounded u) :
    IsUnbounded (unpack .binary64 (pack .binary64 u)) := by
  rcases hu with rfl | ⟨s, rfl⟩
  · exact .inl unpack_packedNaN
  · refine .inr ⟨s, ?_⟩
    cases s <;> rfl

/-- Nothing that is added makes such a number finite. -/
theorem IsUnbounded.add {u : UnpackedFloat} (hu : IsUnbounded u) (v : UnpackedFloat) :
    IsUnbounded (UnpackedFloat.add .binary64 u v) := by
  rcases hu with rfl | ⟨s, rfl⟩
  · left
    cases v <;> simp [UnpackedFloat.add]
  · cases v with
    | infinity t => cases s <;> cases t <;> simp [UnpackedFloat.add, IsUnbounded]
    | notANumber | zero _ | finite _ _ _ _ => simp [UnpackedFloat.add, IsUnbounded]

theorem exists_reading_of_add {x y : Float} {negative : Bool} {value : Rat}
    (h : reading (x + y) = .finite negative value) :
    ∃ other first, reading x = .finite other first := by
  have hbounded : ¬IsUnbounded (parts x) := fun hx =>
    not_isUnbounded_of_reading h (parts_add x y ▸ (hx.add _).unpack_pack)
  have hreads := readsAs_parts x
  generalize parts x = u at hbounded hreads
  generalize reading x = r at hreads
  cases hreads with
  | undefined => exact absurd (.inl rfl) hbounded
  | infinite s _ => exact absurd (.inr ⟨s, rfl⟩) hbounded
  | zero s n => exact ⟨n, 0, rfl⟩
  | @finite s m e hm n v hv => exact ⟨n, v, rfl⟩

end Double

namespace Number

theorem isFinite_of_reading {a : Number} {negative : Bool} {value : Rat}
    (h : Scalar.reading a = .finite negative value) : Scalar.isFinite a = true := by
  rw [Scalar.isFinite, h]
  rfl

/-- What was rounded half up is finite. -/
theorem isFinite_of_roundHalfUp_eq_ok {a b : Number} (h : Scalar.roundHalfUp a = .ok b) :
    Scalar.isFinite b = true := by
  obtain ⟨-, hrounded⟩ := Scalar.roundHalfUp_eq_ok_iff.mp h
  cases hreading : Scalar.reading (a + 1 / 2) with
  | undefined | infinite _ =>
    rw [hreading] at hrounded
    contradiction
  | finite negative value =>
    rw [hreading] at hrounded
    obtain rfl := Except.ok.inj hrounded
    obtain ⟨other, hwhole⟩ := Double.exists_reading_ofInt (Double.isWhole_floor hreading)
    exact isFinite_of_reading hwhole

/-- The double in a finite sum is finite. -/
theorem isFinite_double_of_add {x : Float} {b : Number}
    (h : Scalar.isFinite (double x + b) = true) : Scalar.isFinite (double x) = true := by
  obtain ⟨negative, value, hsum⟩ := exists_reading_of_isFinite h
  have hdouble : (double x + b).toDouble = x + b.toDouble := by cases b <;> rfl
  rw [hdouble] at hsum
  obtain ⟨other, first, hfirst⟩ := Double.exists_reading_of_add hsum
  exact isFinite_of_reading hfirst

theorem exists_reading_of_whole_beq {n : Int} {x : Float}
    (h : (Reading.finite (decide (n < 0)) n).isSame (Double.reading x) = true) :
    ∃ a b, Scalar.reading (whole n) = .finite a n ∧ Scalar.reading (double x) = .finite b n := by
  cases hx : Double.reading x with
  | undefined | infinite _ =>
    rw [hx] at h
    contradiction
  | finite b value =>
    rw [hx] at h
    obtain rfl : (n : Rat) = value := of_decide_eq_true h
    have hfits := Double.isWhole_floor hx
    rw [Rat.floor_intCast] at hfits
    obtain ⟨a, ha⟩ := Double.exists_reading_ofInt hfits
    exact ⟨a, b, ha, hx⟩

/-- Equal finite numbers, a whole one and a double among them, stand for one value. -/
theorem exists_reading_of_beq {a b : Number} (ha : Scalar.isFinite a = true)
    (h : (a == b) = true) :
    ∃ value m n, Scalar.reading a = .finite m value ∧ Scalar.reading b = .finite n value := by
  have hsame : a.exactReading.isSame b.exactReading = true := isSame_iff.mp h
  cases a with
  | whole m =>
    cases b with
    | whole n =>
      obtain rfl : m = n := by exact_mod_cast of_decide_eq_true hsame
      obtain ⟨negative, value, hm⟩ := exists_reading_of_isFinite ha
      exact ⟨value, negative, negative, hm, hm⟩
    | double y =>
      obtain ⟨c, d, hm, hy⟩ := exists_reading_of_whole_beq hsame
      exact ⟨m, c, d, hm, hy⟩
  | double x =>
    obtain ⟨negative, value, hx⟩ := exists_reading_of_isFinite ha
    change Double.reading x = .finite negative value at hx
    cases b with
    | whole n =>
      have hsame' : (Reading.finite (decide (n < 0)) n).isSame (Double.reading x) = true := by
        change (Double.reading x).isSame _ = true at hsame
        rw [hx] at hsame ⊢
        exact decide_eq_true (of_decide_eq_true hsame).symm
      obtain ⟨c, d, hn, hx'⟩ := exists_reading_of_whole_beq hsame'
      exact ⟨n, d, c, hx', hn⟩
    | double y =>
      change (Double.reading x).isSame (Double.reading y) = true at hsame
      cases hy : Double.reading y with
      | undefined | infinite _ =>
        rw [hx, hy] at hsame
        contradiction
      | finite other second =>
        rw [hx, hy] at hsame
        obtain rfl : value = second := of_decide_eq_true hsame
        exact ⟨value, negative, other, hx, hy⟩

end Number

end EntityDiagram
