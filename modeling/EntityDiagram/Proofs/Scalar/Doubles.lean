import EntityDiagram.Scalar.Number
import Mathlib

/-! Doubles by their fields: a sign, an exponent and a significand. A change of sign changes the
field of the sign alone, so a double and its absolute value agree on being zero and on being
undefined, and so do the two differences of two doubles. -/
namespace EntityDiagram.Double

open Float.Model (UnpackedFloat)
open Float.Model.UnpackedFloat

theorem toNat_leading_append (m : BitVec 52) : (1#1 ++ m).toNat = 2 ^ 52 + m.toNat := by
  rw [BitVec.toNat_append, ← Nat.shiftLeft_add_eq_or_of_lt m.isLt]
  simp [Nat.shiftLeft_eq]

theorem toNat_pos_of_ne_zero {m : BitVec 52} (h : m ≠ 0#52) : 0 < m.toNat := by
  simpa [BitVec.toNat_pos, BitVec.pos_iff_ne_zero] using h

/-- What a sign, an exponent and a significand stand for. -/
def ofFields (s : Sign) (e : BitVec 11) (m : BitVec 52) : UnpackedFloat :=
  if e = -1#11 then if m = 0#52 then .infinity s else .notANumber
  else if e = 0#11 then
    if h : m = 0#52 then .zero s
    else .finite s m.toNat (e.toNat - (1023 + 52) + 1) (toNat_pos_of_ne_zero h)
  else .finite s (1#1 ++ m).toNat (e.toNat - (1023 + 52)) (by rw [toNat_leading_append]; omega)

/-- The exponent of 64 bits. -/
def exponent (b : BitVec 64) : BitVec 11 := @unpackExponent .binary64 b

/-- The significand of 64 bits, without its leading bit. -/
def significand (b : BitVec 64) : BitVec 52 := @unpackMantissa .binary64 b

theorem unpack_eq_ofFields (b : BitVec 64) : unpack .binary64 b =
    ofFields (Sign.ofBitVec (@unpackSign .binary64 b)) (exponent b) (significand b) := rfl

theorem ofBitVec_unpackSign_packComponents (s : Sign) (e : BitVec 11) (m : BitVec 52) :
    Sign.ofBitVec (unpackSign (packComponents .binary64 s e m)) = s := by
  simp only [unpackSign, packComponents, BitVec.extractLsb]
  rw [BitVec.extractLsb'_append_eq_of_le (by decide),
    BitVec.extractLsb'_append_eq_of_le (by decide)]
  cases s <;> rfl

theorem unpack_packComponents (s : Sign) (e : BitVec 11) (m : BitVec 52) :
    unpack .binary64 (packComponents .binary64 s e m) = ofFields s e m := by
  rw [unpack_eq_ofFields, ofBitVec_unpackSign_packComponents]
  unfold exponent significand
  rw [unpackExponent_packComponents, unpackMantissa_packComponents]

/-- A finite number is packed field by field when its exponent is in range. -/
theorem pack_finite {s : Sign} {m : Nat} {e : Int} (h : 0 < m) (hrange : e ≤ 971) :
    pack .binary64 (.finite s m e h) = packComponents .binary64 s
      (if m.log2 = 52 then BitVec.ofNat 11 (e + 1075).toNat else 0#11) (BitVec.ofNat 52 m) := by
  have hbias : (e + 1023 + 52).toNat = (e + 1075).toNat := by rw [Int.add_assoc]; rfl
  change (if 2048 ≤ (e + 1023 + 52).toNat + 1 then packedInfinity .binary64 s
    else if m.log2 + 1 = 53 then packComponents .binary64 s (BitVec.ofNat 11 (e + 1023 + 52).toNat)
      (BitVec.ofNat 52 m) else packComponents .binary64 s 0#11 (BitVec.ofNat 52 m)) = _
  rw [hbias, if_neg (by omega)]
  by_cases hlog : m.log2 = 52
  · rw [if_pos (by omega), if_pos hlog]
  · rw [if_neg (by omega), if_neg hlog]

/-- Packing puts the fields back in their places. -/
theorem pack_ofFields {s : Sign} {e : BitVec 11} {m : BitVec 52} (h : e = -1#11 → m = 0#52) :
    pack .binary64 (ofFields s e m) = packComponents .binary64 s e m := by
  have hm := m.isLt
  unfold ofFields
  split_ifs with hmax hzero hmin hzero
  · rw [hmax, hzero]
    rfl
  · exact absurd (h hmax) hzero
  · rw [hmin, hzero]
    rfl
  · have hlog : m.toNat.log2 ≠ 52 := by
      have := (Nat.log2_lt (Nat.ne_of_gt (toNat_pos_of_ne_zero hzero))).mpr hm
      omega
    rw [pack_finite _ (by rw [hmin]; decide), if_neg hlog, hmin, BitVec.ofNat_toNat,
      BitVec.setWidth_eq]
  · have he : e.toNat ≤ 2046 := by
      have := e.isLt
      have : e.toNat ≠ 2047 := fun htop => hmax (BitVec.toNat_inj.mp (by simpa using htop))
      omega
    have hlog : (2 ^ 52 + m.toNat).log2 = 52 := (Nat.log2_eq_iff (by omega)).mpr (by omega)
    have hexponent : ((e.toNat : Int) - (1023 + 52) + 1075).toNat = e.toNat := by omega
    have hsignificand : BitVec.ofNat 52 (2 ^ 52 + m.toNat) = m := by
      apply BitVec.toNat_inj.mp
      rw [BitVec.toNat_ofNat, Nat.add_mod_left, Nat.mod_eq_of_lt hm]
    rw [pack_finite _ (by omega), toNat_leading_append, if_pos hlog, hexponent, hsignificand,
      BitVec.ofNat_toNat, BitVec.setWidth_eq]

theorem unpack_pack_ofFields (s : Sign) (e : BitVec 11) (m : BitVec 52) :
    unpack .binary64 (pack .binary64 (ofFields s e m)) = ofFields s e m := by
  by_cases h : e = -1#11 → m = 0#52
  · rw [pack_ofFields h, unpack_packComponents]
  · rw [Classical.not_imp] at h
    rw [ofFields, if_pos h.1, if_neg h.2]
    rfl

theorem neg_ofFields (s : Sign) (e : BitVec 11) (m : BitVec 52) :
    (ofFields s e m).neg = ofFields (-s) e m := by
  unfold ofFields
  split_ifs <;> rfl

theorem abs_ofFields (s : Sign) (e : BitVec 11) (m : BitVec 52) :
    (ofFields s e m).abs = ofFields .positive e m := by
  unfold ofFields
  split_ifs <;> rfl

/-- Packing a number with the other sign changes the sign field alone. -/
theorem unpack_pack_neg (u : UnpackedFloat) :
    unpack .binary64 (pack .binary64 u.neg) = (unpack .binary64 (pack .binary64 u)).neg := by
  cases u with
  | notANumber => rfl
  | infinity s => cases s <;> rfl
  | zero s => cases s <;> rfl
  | finite s m e h =>
    change unpack .binary64 (pack .binary64 (.finite (-s) m e h)) = _
    unfold pack
    simp only
    split_ifs
    · cases s <;> rfl
    · rw [unpack_packComponents, unpack_packComponents, neg_ofFields]
    · rw [unpack_packComponents, unpack_packComponents, neg_ofFields]

theorem round_neg (s : Sign) (m : Nat) (e : Int) :
    UnpackedFloat.round .binary64 (-s) m e = (UnpackedFloat.round .binary64 s m e).neg := by
  unfold UnpackedFloat.round roundWithAccuracy
  simp only
  split_ifs <;> rfl

/-- The opposite sum of whole multiples of a power of two is the opposite double, or zero. -/
theorem normalize_neg (m e : Int) :
    UnpackedFloat.normalize .binary64 (-m) e .positive =
        (UnpackedFloat.normalize .binary64 m e .positive).neg ∨
      UnpackedFloat.normalize .binary64 (-m) e .positive = .zero .positive ∧
        UnpackedFloat.normalize .binary64 m e .positive = .zero .positive := by
  unfold UnpackedFloat.normalize
  rcases lt_trichotomy m 0 with h | rfl | h
  · left
    rw [compare_gt_iff_gt.mpr (by omega : -m > 0), compare_lt_iff_lt.mpr h]
    exact round_neg .negative _ e
  · right
    exact ⟨rfl, rfl⟩
  · left
    rw [compare_lt_iff_lt.mpr (by omega : -m < 0), compare_gt_iff_gt.mpr h, Int.neg_neg]
    exact round_neg .positive _ e

/-- The two differences of two numbers are opposite to each other, or both zero. -/
theorem sub_swap (u v : UnpackedFloat) :
    UnpackedFloat.sub .binary64 v u = (UnpackedFloat.sub .binary64 u v).neg ∨
      ∃ s t, UnpackedFloat.sub .binary64 v u = .zero s ∧
        UnpackedFloat.sub .binary64 u v = .zero t := by
  cases u with
  | notANumber => cases v <;> exact .inl rfl
  | infinity s =>
    cases v with
    | infinity t => cases s <;> cases t <;> exact .inl rfl
    | notANumber | zero _ | finite _ _ _ _ => exact .inl rfl
  | zero s =>
    cases v with
    | zero t => cases s <;> cases t <;> exact .inr ⟨_, _, rfl, rfl⟩
    | infinity t | finite t _ _ _ => cases t <;> exact .inl rfl
    | notANumber => exact .inl rfl
  | finite s m e h =>
    cases v with
    | infinity t => cases t <;> exact .inl rfl
    | notANumber | zero _ => exact .inl rfl
    | finite t n f hn =>
      have hopposite (a b : Nat) : t.apply b - s.apply a = -(s.apply a - t.apply b) :=
        (Int.neg_sub _ _).symm
      simp only [UnpackedFloat.sub, Int.min_comm f e, hopposite]
      obtain hneg | hzero := normalize_neg
        (s.apply (decreaseExponent m e (min e f)).1 - t.apply (decreaseExponent n f (min e f)).1)
        (min e f)
      · exact .inl hneg
      · exact .inr ⟨_, _, hzero⟩

/-- A double taken apart. -/
def parts (x : Float) : UnpackedFloat := x.toModel.unpack

theorem parts_eq_ofFields (x : Float) : ∃ s, parts x =
    ofFields s (exponent x.toBits.toBitVec) (significand x.toBits.toBitVec) :=
  ⟨_, unpack_eq_ofFields x.toBits.toBitVec⟩

theorem unpack_pack_parts (x : Float) : unpack .binary64 (pack .binary64 (parts x)) = parts x := by
  obtain ⟨s, hparts⟩ := parts_eq_ofFields x
  rw [hparts, unpack_pack_ofFields]

theorem parts_abs (x : Float) : parts x.abs = (parts x).abs := by
  change unpack .binary64 (pack .binary64 (parts x).abs) = (parts x).abs
  obtain ⟨s, hparts⟩ := parts_eq_ofFields x
  rw [hparts, abs_ofFields, unpack_pack_ofFields]

theorem parts_sub (x y : Float) : parts (x - y) =
    unpack .binary64 (pack .binary64 (UnpackedFloat.sub .binary64 (parts x) (parts y))) := rfl

theorem parts_sub_swap (x y : Float) : parts (y - x) = (parts (x - y)).neg ∨
    ∃ s t, parts (y - x) = .zero s ∧ parts (x - y) = .zero t := by
  rw [parts_sub, parts_sub]
  obtain hopposite | ⟨s, t, hs, ht⟩ := sub_swap (parts x) (parts y)
  · rw [hopposite, unpack_pack_neg]
    exact .inl rfl
  · rw [hs, ht]
    exact .inr ⟨s, t, by cases s <;> rfl, by cases t <;> rfl⟩

theorem toNat_exponent (b : BitVec 64) : (exponent b).toNat = b.toNat / leadingBit % 2048 := by
  change (b.extractLsb 62 52).toNat = _
  rw [BitVec.extractLsb_toNat, Nat.shiftRight_eq_div_pow]
  rfl

theorem toNat_significand (b : BitVec 64) : (significand b).toNat = b.toNat % leadingBit := by
  change (b.extractLsb 51 0).toNat = _
  rw [BitVec.extractLsb_toNat, Nat.shiftRight_zero]
  rfl

theorem scaled_eq_zero_iff {m e : Nat} : scaled m e = 0 ↔ m = 0 := by
  have hpower (k : Nat) : Nat.pow 2 k ≠ 0 := Nat.ne_of_gt (Nat.two_pow_pos k)
  unfold scaled
  split_ifs
  · rw [Rat.mkRat_eq_zero (by decide), Int.natCast_eq_zero, Nat.mul_eq_zero]
    exact or_iff_left (hpower _)
  · rw [Rat.mkRat_eq_zero (hpower _), Int.natCast_eq_zero]

/-- Whether a sign is that of negative numbers. -/
def isNegative : Sign → Bool
  | .negative => true
  | .positive => false

/-- A value with a sign. -/
def signed (s : Sign) (value : Rat) : Rat := if isNegative s then -value else value

theorem isNegative_unpackSign (b : BitVec 64) :
    isNegative (Sign.ofBitVec (@unpackSign .binary64 b)) = decide (signBit ≤ b.toNat) := by
  have hsign : (@unpackSign .binary64 b).toNat = b.toNat / 2 ^ 63 := by
    change (b.extractLsb 63 63).toNat = _
    rw [BitVec.extractLsb_toNat, Nat.shiftRight_eq_div_pow]
    have := b.isLt
    omega
  have hzero : @unpackSign .binary64 b = 0#1 ↔ b.toNat < 2 ^ 63 := by
    rw [← BitVec.toNat_inj, hsign]
    simp [Nat.div_eq_zero_iff]
  unfold Sign.ofBitVec
  have hbit : signBit = 2 ^ 63 := rfl
  rw [hbit]
  split_ifs with h
  · simpa [isNegative] using hzero.mp h
  · simpa [isNegative] using mt hzero.mpr h

/-- What a number taken apart stands for exactly. The significand is below the next power of two,
and only at the least exponent may it lack its leading bit. -/
inductive StandsFor : UnpackedFloat → Reading → Prop
  | undefined : StandsFor .notANumber .undefined
  | infinite (s : Sign) : StandsFor (.infinity s) (.infinite (isNegative s))
  | zero (s : Sign) : StandsFor (.zero s) (.finite (isNegative s) 0)
  | finite (s : Sign) {m k : Nat} (h : 0 < m) (hbound : m < 2 ^ 53) (hlead : k = 0 ∨ 2 ^ 52 ≤ m) :
      StandsFor (.finite s m (k - 1074) h) (.finite (isNegative s) (signed s (scaled m k)))

theorem standsFor_parts (x : Float) : StandsFor (parts x) (reading x) := by
  have he : x.toBits.toNat / leadingBit % 2048 = (exponent x.toBits.toBitVec).toNat :=
    (toNat_exponent _).symm
  have hm : x.toBits.toNat % leadingBit = (significand x.toBits.toBitVec).toNat :=
    (toNat_significand _).symm
  have hs := isNegative_unpackSign x.toBits.toBitVec
  have hparts : parts x = _ := unpack_eq_ofFields x.toBits.toBitVec
  change _ = decide (signBit ≤ x.toBits.toNat) at hs
  rw [hparts, reading, readingOfBits, he, hm, ← hs]
  generalize Sign.ofBitVec (@unpackSign .binary64 x.toBits.toBitVec) = s
  generalize exponent x.toBits.toBitVec = e
  generalize significand x.toBits.toBitVec = m
  have hmax : e.toNat = 2047 ↔ e = -1#11 := by rw [← BitVec.toNat_inj]; rfl
  have hmin : e.toNat = 0 ↔ e = 0#11 := by rw [← BitVec.toNat_inj]; rfl
  have hzero : m.toNat = 0 ↔ m = 0#52 := by rw [← BitVec.toNat_inj]; rfl
  unfold ofFields
  simp only [hmax, hmin, hzero]
  by_cases hmax : e = -1#11
  · by_cases hzero : m = 0#52
    · simp only [if_pos hmax, if_pos hzero]
      exact .infinite s
    · simp only [if_pos hmax, if_neg hzero]
      exact .undefined
  · by_cases hmin' : e = 0#11
    · by_cases hzero : m = 0#52
      · simp only [if_neg hmax, if_pos hmin', dif_pos hzero]
        have hvalue : scaled m.toNat 0 = 0 := scaled_eq_zero_iff.mpr (by rw [hzero]; rfl)
        rw [hvalue, Rat.neg_zero, ite_self]
        exact .zero s
      · simp only [if_neg hmax, if_pos hmin', dif_neg hzero]
        rw [hmin']
        have hbound := m.isLt
        exact StandsFor.finite s (k := 0) (toNat_pos_of_ne_zero hzero) (by omega) (.inl rfl)
    · simp only [if_neg hmax, if_neg hmin']
      have hpos : 0 < e.toNat := Nat.pos_of_ne_zero (mt hmin.mp hmin')
      have hlead : leadingBit + m.toNat = (1#1 ++ m).toNat := (toNat_leading_append m).symm
      have hbound := m.isLt
      have hexponent : ((e.toNat - 1 : Nat) : Int) - 1074 = e.toNat - (1023 + 52) := by omega
      have hfinite := StandsFor.finite s (m := (1#1 ++ m).toNat) (k := e.toNat - 1)
        (by rw [toNat_leading_append]; omega) (by rw [toNat_leading_append]; omega)
        (.inr (by rw [toNat_leading_append]; omega))
      simp only [hexponent] at hfinite
      rw [hlead]
      exact hfinite

/-- What a number taken apart is read as. -/
inductive ReadsAs : UnpackedFloat → Reading → Prop
  | undefined : ReadsAs .notANumber .undefined
  | infinite (s : Sign) (negative : Bool) : ReadsAs (.infinity s) (.infinite negative)
  | zero (s : Sign) (negative : Bool) : ReadsAs (.zero s) (.finite negative 0)
  | finite (s : Sign) {m : Nat} (e : Int) (h : 0 < m) (negative : Bool) {value : Rat}
      (hvalue : value ≠ 0) : ReadsAs (.finite s m e h) (.finite negative value)

theorem signed_scaled_ne_zero (s : Sign) {m : Nat} (k : Nat) (h : 0 < m) :
    signed s (scaled m k) ≠ 0 := by
  have hvalue : scaled m k ≠ 0 := mt scaled_eq_zero_iff.mp h.ne'
  unfold signed
  split_ifs
  · exact neg_ne_zero.mpr hvalue
  · exact hvalue

/-- A double is read from the same fields that it is taken apart into. -/
theorem readsAs_parts (x : Float) : ReadsAs (parts x) (reading x) := by
  have hstands := standsFor_parts x
  generalize parts x = u at hstands
  generalize reading x = r at hstands
  cases hstands with
  | undefined => exact .undefined
  | infinite s => exact .infinite s _
  | zero s => exact .zero s _
  | finite s h _ _ => exact .finite s _ h _ (signed_scaled_ne_zero s _ h)

theorem reading_eq_undefined_iff {x : Float} : reading x = .undefined ↔ parts x = .notANumber := by
  have hreads := readsAs_parts x
  generalize parts x = u at hreads
  generalize reading x = r at hreads
  cases hreads <;> simp

/-- Whether a double is zero, of either sign. -/
def IsZero (x : Float) : Prop := ∃ negative, reading x = .finite negative 0

theorem isZero_iff {x : Float} : IsZero x ↔ ∃ s, parts x = .zero s := by
  unfold IsZero
  have hreads := readsAs_parts x
  generalize parts x = u at hreads
  generalize reading x = r at hreads
  cases hreads with
  | finite s e h negative hvalue => simp [hvalue]
  | undefined | infinite _ _ | zero _ _ => simp

theorem isZero_abs_iff {x : Float} : IsZero x.abs ↔ IsZero x := by
  rw [isZero_iff, isZero_iff, parts_abs]
  cases parts x <;> simp [UnpackedFloat.abs]

/-- Both differences of two doubles are zero, or neither is. -/
theorem isZero_sub_swap {x y : Float} : IsZero (y - x) ↔ IsZero (x - y) := by
  rw [isZero_iff, isZero_iff]
  obtain hopposite | ⟨s, t, hs, ht⟩ := parts_sub_swap x y
  · rw [hopposite]
    cases parts (x - y) with
    | zero s => exact ⟨fun _ => ⟨s, rfl⟩, fun _ => ⟨-s, rfl⟩⟩
    | infinity _ | notANumber | finite _ _ _ _ => simp [UnpackedFloat.neg]
  · exact ⟨fun _ => ⟨t, ht⟩, fun _ => ⟨s, hs⟩⟩

/-- Both differences of two doubles are undefined, or neither is. -/
theorem reading_sub_swap_eq_undefined_iff {x y : Float} :
    reading (y - x) = .undefined ↔ reading (x - y) = .undefined := by
  rw [reading_eq_undefined_iff, reading_eq_undefined_iff]
  obtain hopposite | ⟨s, t, hs, ht⟩ := parts_sub_swap x y
  · rw [hopposite]
    cases parts (x - y) <;> simp [UnpackedFloat.neg]
  · simp [hs, ht]

theorem lt_iff {x y : Float} : x < y ↔ (parts x).compare (parts y) = some .lt := by
  change decide (x.toModel < y.toModel) = true ↔ _
  rw [decide_eq_true_iff]
  exact beq_iff_eq

/-- No absolute value is below zero. -/
theorem not_abs_lt_of_isZero {x y : Float} (hy : IsZero y) : ¬x.abs < y.abs := by
  obtain ⟨s, hy⟩ := isZero_iff.mp hy
  rw [lt_iff, parts_abs, parts_abs, hy]
  cases parts x <;> simp [UnpackedFloat.abs, UnpackedFloat.compare]

/-- Zero is below every absolute value but zero and what is undefined. -/
theorem abs_lt_abs_iff_of_isZero {x y : Float} (hx : IsZero x) :
    x.abs < y.abs ↔ ¬IsZero y ∧ reading y ≠ .undefined := by
  rw [isZero_iff, Ne, reading_eq_undefined_iff]
  obtain ⟨s, hx⟩ := isZero_iff.mp hx
  rw [lt_iff, parts_abs, parts_abs, hx]
  cases parts y <;> simp [UnpackedFloat.abs, UnpackedFloat.compare]

end EntityDiagram.Double
