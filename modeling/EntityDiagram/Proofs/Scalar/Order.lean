import EntityDiagram.Proofs.Scalar.Doubles

/-! Numbers in their order. Comparing two doubles field by field compares the exact values that they
stand for, so all numbers but the undefined ones stand in one linear order, whole numbers and the
two infinities among them. A number kept between zero and a limit lies there, even where it is
undefined itself. -/
namespace EntityDiagram

namespace Double

open Float.Model (UnpackedFloat)
open Float.Model.UnpackedFloat

theorem scaled_eq (m k : Nat) : scaled m k = ((m * 2 ^ k : Nat) : Rat) / 2 ^ 1074 := by
  unfold scaled
  generalize 1074 = bias
  split_ifs with h
  · obtain ⟨j, rfl⟩ := Nat.exists_eq_add_of_le h
    rw [Rat.mkRat_eq_div, Nat.add_sub_cancel_left, Nat.pow_eq, Nat.pow_add]
    push_cast
    field_simp
  · obtain ⟨j, hj⟩ := Nat.exists_eq_add_of_le (Nat.le_of_not_le h)
    rw [Rat.mkRat_eq_div, Nat.pow_eq, hj, Nat.add_sub_cancel_left, pow_add]
    push_cast
    field_simp

theorem scaled_lt_iff {m n k l : Nat} : scaled m k < scaled n l ↔ m * 2 ^ k < n * 2 ^ l := by
  have hpos : (0 : Rat) < 2 ^ 1074 := pow_pos two_pos 1074
  rw [scaled_eq, scaled_eq, div_lt_div_iff_of_pos_right hpos, Nat.cast_lt]

/-- A number of a lesser exponent is below one of a greater exponent that has its leading bit. -/
theorem mul_pow_lt_of_lt {m n k l : Nat} (hm : m < 2 ^ 53) (hn : l = 0 ∨ 2 ^ 52 ≤ n) (h : k < l) :
    m * 2 ^ k < n * 2 ^ l := by
  have hlead : 2 ^ 52 ≤ n := hn.resolve_left (by omega)
  obtain ⟨j, rfl⟩ := Nat.exists_eq_add_of_lt h
  calc m * 2 ^ k < 2 ^ 53 * 2 ^ k := Nat.mul_lt_mul_of_pos_right hm (by positivity)
    _ = 2 ^ 52 * 2 ^ (k + 0 + 1) := by rw [← Nat.pow_add, ← Nat.pow_add]; congr 1; omega
    _ ≤ 2 ^ 52 * 2 ^ (k + j + 1) :=
      Nat.mul_le_mul_left _ (Nat.pow_le_pow_right (by decide) (by omega))
    _ ≤ n * 2 ^ (k + j + 1) := Nat.mul_le_mul_right _ hlead

/-- Exponents are compared before significands. -/
theorem then_compare_eq {m n k l : Nat} (hm : m < 2 ^ 53) (hmlead : k = 0 ∨ 2 ^ 52 ≤ m)
    (hn : n < 2 ^ 53) (hnlead : l = 0 ∨ 2 ^ 52 ≤ n) :
    (compare ((k : Int) - 1074) (l - 1074)).then (compare m n) = cmp (scaled m k) (scaled n l) := by
  rcases lt_trichotomy k l with h | rfl | h
  · have hlt : compare ((k : Int) - 1074) (l - 1074) = .lt := compare_lt_iff_lt.mpr (by omega)
    rw [hlt, Ordering.lt_then, eq_comm, cmp_eq_lt_iff, scaled_lt_iff]
    exact mul_pow_lt_of_lt hm hnlead h
  · rw [compare_eq_iff_eq.mpr rfl, Ordering.eq_then]
    have hpow : 0 < 2 ^ k := by positivity
    rcases lt_trichotomy m n with h | rfl | h
    · rw [compare_lt_iff_lt.mpr h, eq_comm, cmp_eq_lt_iff, scaled_lt_iff]
      exact Nat.mul_lt_mul_of_pos_right h hpow
    · rw [compare_eq_iff_eq.mpr rfl, cmp_self_eq_eq]
    · rw [compare_gt_iff_gt.mpr h, eq_comm, cmp_eq_gt_iff, scaled_lt_iff]
      exact Nat.mul_lt_mul_of_pos_right h hpow
  · have hgt : compare ((k : Int) - 1074) (l - 1074) = .gt := compare_gt_iff_gt.mpr (by omega)
    rw [hgt, Ordering.gt_then, eq_comm, cmp_eq_gt_iff, scaled_lt_iff]
    exact mul_pow_lt_of_lt hn hmlead h

theorem scaled_pos {m k : Nat} (h : 0 < m) : 0 < scaled m k := by
  have hpos : (0 : Rat) < 2 ^ 1074 := pow_pos two_pos 1074
  rw [scaled_eq]
  exact div_pos (by exact_mod_cast Nat.mul_pos h (Nat.two_pow_pos k)) hpos

/-- A value that is not zero has its own sign. -/
theorem negative_eq_of_ne_zero {x : Float} {negative : Bool} {value : Rat}
    (h : reading x = .finite negative value) (hvalue : value ≠ 0) :
    negative = decide (value < 0) := by
  have hstands := standsFor_parts x
  rw [h] at hstands
  generalize parts x = u at hstands
  cases hstands with
  | zero s => exact absurd rfl hvalue
  | @finite s m k hm _ _ =>
    have hpos := scaled_pos (k := k) hm
    cases s
    · simp [signed, isNegative, hpos]
    · simp [signed, isNegative, hpos.le]

/-- Numbers taken apart are compared as what they stand for. -/
theorem compare_iff {u v : UnpackedFloat} {r t : Reading} (hu : StandsFor u r)
    (hv : StandsFor v t) : (u.compare v = some .lt ↔ r.isBelow t = true) ∧
      (u.compare v = some .eq ↔ r.isSame t = true) := by
  cases hu with
  | undefined => cases hv <;> simp [UnpackedFloat.compare, Reading.isBelow, Reading.isSame]
  | infinite s =>
    cases hv with
    | infinite t => cases s <;> cases t <;>
        simp [UnpackedFloat.compare, Reading.isBelow, Reading.isSame, isNegative, compare]
    | undefined | zero t | finite t _ _ _ =>
      cases s <;> simp [UnpackedFloat.compare, Reading.isBelow, Reading.isSame, isNegative]
  | zero s =>
    cases hv with
    | undefined => simp [UnpackedFloat.compare, Reading.isBelow, Reading.isSame]
    | infinite t =>
      cases t <;> simp [UnpackedFloat.compare, Reading.isBelow, Reading.isSame, isNegative]
    | zero t => simp [UnpackedFloat.compare, Reading.isBelow, Reading.isSame]
    | @finite t n l hn hbound hlead =>
      have hpos := scaled_pos (k := l) hn
      cases t <;> simp [UnpackedFloat.compare, Reading.isBelow, Reading.isSame, isNegative, signed]
      all_goals grind
  | @finite s m k hm hbound hlead =>
    have hpos := scaled_pos (k := k) hm
    cases hv with
    | undefined => simp [UnpackedFloat.compare, Reading.isBelow, Reading.isSame]
    | infinite t =>
      cases t <;> simp [UnpackedFloat.compare, Reading.isBelow, Reading.isSame, isNegative]
    | zero t =>
      cases s <;> simp [UnpackedFloat.compare, Reading.isBelow, Reading.isSame, isNegative, signed]
      all_goals grind
    | @finite t n l hn hbound' hlead' =>
      have hpos' := scaled_pos (k := l) hn
      have hcompare := then_compare_eq hbound hlead hbound' hlead'
      cases s <;> cases t <;>
        simp [UnpackedFloat.compare, Reading.isBelow, Reading.isSame, isNegative, signed, hcompare]
      all_goals grind

theorem lt_iff_isBelow {x y : Float} : x < y ↔ (reading x).isBelow (reading y) = true := by
  rw [lt_iff]
  exact (compare_iff (standsFor_parts x) (standsFor_parts y)).1

theorem beq_iff_isSame {x y : Float} : (x == y) = true ↔ (reading x).isSame (reading y) = true := by
  have hbeq : (x == y) = true ↔ (parts x).compare (parts y) = some .eq := by
    change ((parts x).compare (parts y) == some .eq) = true ↔ _
    exact beq_iff_eq
  rw [hbeq]
  exact (compare_iff (standsFor_parts x) (standsFor_parts y)).2

/-- Packing makes nothing undefined. -/
theorem unpack_pack_ne_notANumber {u : UnpackedFloat} (h : u ≠ .notANumber) :
    unpack .binary64 (pack .binary64 u) ≠ .notANumber := by
  have hfields (s : Sign) {e : BitVec 11} (m : BitVec 52) (he : e ≠ -1#11) :
      ofFields s e m ≠ .notANumber := by
    rw [ofFields, if_neg he]
    split_ifs <;> simp
  cases u with
  | notANumber => exact absurd rfl h
  | infinity s => cases s <;> exact UnpackedFloat.noConfusion
  | zero s => cases s <;> exact UnpackedFloat.noConfusion
  | finite s m e hm =>
    unfold pack
    simp only
    split_ifs with hrange hlog
    · cases s <;> exact UnpackedFloat.noConfusion
    · rw [unpack_packComponents]
      apply hfields
      -- The greatest exponent would be out of range.
      intro hmax
      have hnat := congrArg BitVec.toNat hmax
      rw [BitVec.toNat_ofNat, Nat.mod_eq_of_lt (by omega)] at hnat
      exact hrange (by rw [hnat]; decide)
    · rw [unpack_packComponents]
      exact hfields _ _ (by decide)

theorem roundWithAccuracy_ne_notANumber (s : Sign) (m : Nat) (e : Int) (a : Accuracy) :
    roundWithAccuracy .binary64 s m e a ≠ .notANumber := by
  unfold roundWithAccuracy
  simp only
  split_ifs <;> simp

theorem normalize_ne_notANumber (m e : Int) (s : Sign) :
    UnpackedFloat.normalize .binary64 m e s ≠ .notANumber := by
  unfold UnpackedFloat.normalize
  split
  · exact roundWithAccuracy_ne_notANumber _ _ _ _
  · simp
  · exact roundWithAccuracy_ne_notANumber _ _ _ _

/-- Only two infinities on one side have no difference. -/
theorem exists_infinite_of_reading_sub {x y : Float} (hx : reading x ≠ .undefined)
    (hy : reading y ≠ .undefined) (h : reading (x - y) = .undefined) :
    ∃ negative, reading x = .infinite negative ∧ reading y = .infinite negative := by
  rw [reading_eq_undefined_iff, parts_sub] at h
  have hsub := not_imp_not.mp unpack_pack_ne_notANumber h
  have hu := standsFor_parts x
  have hv := standsFor_parts y
  generalize parts x = u at hu hsub
  generalize parts y = v at hv hsub
  generalize reading x = r at hx hu ⊢
  generalize reading y = t at hy hv ⊢
  cases hu with
  | undefined => contradiction
  | infinite s =>
    cases hv with
    | undefined => contradiction
    | infinite t => cases s <;> cases t <;> first | exact ⟨_, rfl, rfl⟩ | cases hsub
    | zero t | finite t _ _ _ => cases hsub
  | zero s =>
    cases hv with
    | undefined => contradiction
    | zero t => cases s <;> cases t <;> cases hsub
    | infinite t | finite t _ _ _ => cases hsub
  | finite s _ _ _ =>
    cases hv with
    | undefined => contradiction
    | infinite t | zero t => cases hsub
    | finite t _ _ _ => exact absurd hsub (normalize_ne_notANumber _ _ _)

/-- The difference of two finite doubles may be infinite, but it is defined. -/
theorem reading_sub_ne_undefined {x y : Float} {a b : Bool} {v w : Rat}
    (hx : reading x = .finite a v) (hy : reading y = .finite b w) :
    reading (x - y) ≠ .undefined := by
  intro h
  obtain ⟨negative, hinfinite, -⟩ := exists_infinite_of_reading_sub (hx ▸ Reading.noConfusion)
    (hy ▸ Reading.noConfusion) h
  rw [hx] at hinfinite
  contradiction

end Double

namespace Reading

/-- The place of a reading among all values with the two infinities. -/
def place : Reading → WithBot (WithTop Rat)
  | finite _ value => ((value : WithTop Rat) : WithBot (WithTop Rat))
  | infinite false => ((⊤ : WithTop Rat) : WithBot (WithTop Rat))
  | infinite true | undefined => ⊥

theorem isBelow_iff {r t : Reading} :
    r.isBelow t = true ↔ r ≠ undefined ∧ t ≠ undefined ∧ r.place < t.place := by
  have hinfinity (v : Rat) : (((v : WithTop Rat) : WithBot (WithTop Rat))) < ⊤ :=
    WithBot.coe_lt_coe.mpr (WithTop.coe_lt_top v)
  cases r with
  | undefined => simp [isBelow]
  | finite a v =>
    cases t with
    | undefined => simp [isBelow]
    | finite b w => simp [isBelow, place]
    | infinite b => cases b <;> simp [isBelow, place, hinfinity]
  | infinite a =>
    cases a <;> cases t with
    | undefined => simp [isBelow]
    | finite b w => simp [isBelow, place]
    | infinite b => cases b <;> simp [isBelow, place]

theorem isSame_iff {r t : Reading} :
    r.isSame t = true ↔ r ≠ undefined ∧ t ≠ undefined ∧ r.place = t.place := by
  cases r with
  | undefined => simp [isSame]
  | finite a v =>
    cases t with
    | undefined => simp [isSame]
    | finite b w => simp [isSame, place]
    | infinite b => cases b <;> simp [isSame, place]
  | infinite a =>
    cases a <;> cases t with
    | undefined => simp [isSame]
    | finite b w => simp [isSame, place]
    | infinite b => cases b <;> simp [isSame, place]

end Reading

namespace Number

/-- Numbers of either kind are compared as what they stand for exactly. -/
theorem isBelow_iff {a b : Number} :
    a.isBelow b = true ↔ a.exactReading.isBelow b.exactReading = true := by
  cases a with
  | whole m =>
    cases b with
    | whole n => simp [isBelow, exactReading, Reading.isBelow]
    | double y => rfl
  | double x =>
    cases b with
    | whole n => rfl
    | double y =>
      rw [exactReading, exactReading, ← Double.lt_iff_isBelow]
      exact decide_eq_true_iff

theorem isSame_iff {a b : Number} :
    a.isSame b = true ↔ a.exactReading.isSame b.exactReading = true := by
  cases a with
  | whole m =>
    cases b with
    | whole n => simp [isSame, exactReading, Reading.isSame]
    | double y => rfl
  | double x =>
    cases b with
    | whole n => rfl
    | double y =>
      rw [exactReading, exactReading, ← Double.beq_iff_isSame]
      rfl

/-- Not what comes out of arithmetic that has no value. -/
def IsDefined (a : Number) : Prop := a.exactReading ≠ .undefined

/-- The place of a number among all values. -/
def place (a : Number) : WithBot (WithTop Rat) := a.exactReading.place

theorem lt_iff {a b : Number} : a < b ↔ a.IsDefined ∧ b.IsDefined ∧ a.place < b.place := by
  change a.isBelow b = true ↔ _
  rw [isBelow_iff, Reading.isBelow_iff]
  rfl

theorem beq_iff {a b : Number} :
    (a == b) = true ↔ a.IsDefined ∧ b.IsDefined ∧ a.place = b.place := by
  change a.isSame b = true ↔ _
  rw [isSame_iff, Reading.isSame_iff]
  rfl

end Number

/-- Below or equal; what is undefined is neither. -/
def Scalar.AtMost {α : Type} [Scalar α] (a b : α) : Prop := a < b ∨ (a == b) = true

namespace Number

theorem atMost_iff {a b : Number} :
    Scalar.AtMost a b ↔ a.IsDefined ∧ b.IsDefined ∧ a.place ≤ b.place := by
  rw [Scalar.AtMost, lt_iff, beq_iff, le_iff_lt_or_eq]
  tauto

theorem atMost_refl {a : Number} (h : a.IsDefined) : Scalar.AtMost a a :=
  atMost_iff.mpr ⟨h, h, le_rfl⟩

theorem atMost_trans {a b c : Number} (h : Scalar.AtMost a b) (h' : Scalar.AtMost b c) :
    Scalar.AtMost a c := by
  obtain ⟨ha, -, hab⟩ := atMost_iff.mp h
  obtain ⟨-, hc, hbc⟩ := atMost_iff.mp h'
  exact atMost_iff.mpr ⟨ha, hc, hab.trans hbc⟩

theorem lt_of_atMost_of_lt {a b c : Number} (h : Scalar.AtMost a b) (h' : b < c) : a < c := by
  obtain ⟨ha, -, hab⟩ := atMost_iff.mp h
  obtain ⟨-, hc, hbc⟩ := lt_iff.mp h'
  exact lt_iff.mpr ⟨ha, hc, hab.trans_lt hbc⟩

theorem isDefined_zero : (0 : Number).IsDefined := Reading.noConfusion

theorem place_zero : (0 : Number).place = (((0 : Rat) : WithTop Rat) : WithBot (WithTop Rat)) := by
  change ((((0 : Int) : Rat) : WithTop Rat) : WithBot (WithTop Rat)) = _
  rw [Int.cast_zero]

/-- The larger of two numbers, from a defined one on. -/
theorem larger_cases {a b : Number} (h : a.IsDefined) :
    a < b ∧ Scalar.larger a b = b ∨
      (b.IsDefined → Scalar.AtMost b a) ∧ Scalar.larger a b = a := by
  unfold Scalar.larger
  split_ifs with hlt
  · exact .inl ⟨hlt, rfl⟩
  · refine .inr ⟨fun hb => atMost_iff.mpr ⟨hb, h, not_lt.mp fun hplace => ?_⟩, rfl⟩
    exact hlt (lt_iff.mpr ⟨h, hb, hplace⟩)

theorem isDefined_larger {a : Number} (h : a.IsDefined) (b : Number) :
    (Scalar.larger a b).IsDefined := by
  unfold Scalar.larger
  split_ifs with hlt
  · exact (lt_iff.mp hlt).2.1
  · exact h

theorem isDefined_smaller {a : Number} (h : a.IsDefined) (b : Number) :
    (Scalar.smaller a b).IsDefined := by
  unfold Scalar.smaller
  split_ifs with hlt
  · exact (lt_iff.mp hlt).1
  · exact h

theorem place_larger {a b : Number} (ha : a.IsDefined) (hb : b.IsDefined) :
    (Scalar.larger a b).place = max a.place b.place := by
  unfold Scalar.larger
  split_ifs with h
  · exact (max_eq_right (lt_iff.mp h).2.2.le).symm
  · have hle : b.place ≤ a.place := not_lt.mp fun hlt => h (lt_iff.mpr ⟨ha, hb, hlt⟩)
    exact (max_eq_left hle).symm

theorem place_smaller {a b : Number} (ha : a.IsDefined) (hb : b.IsDefined) :
    (Scalar.smaller a b).place = min a.place b.place := by
  unfold Scalar.smaller
  split_ifs with h
  · exact (min_eq_right (lt_iff.mp h).2.2.le).symm
  · have hle : a.place ≤ b.place := not_lt.mp fun hlt => h (lt_iff.mpr ⟨hb, ha, hlt⟩)
    exact (min_eq_left hle).symm

theorem clamp_within (a : Number) {limit : Number} (hlimit : limit.IsDefined) :
    Scalar.AtMost 0 (Scalar.larger 0 (Scalar.smaller a limit)) ∧
      Scalar.AtMost (Scalar.larger 0 (Scalar.smaller a limit)) (Scalar.larger 0 limit) := by
  have hdefined := isDefined_larger isDefined_zero (Scalar.smaller a limit)
  rw [atMost_iff, atMost_iff, and_iff_right isDefined_zero, and_iff_right hdefined,
    and_iff_right hdefined, and_iff_right (isDefined_larger isDefined_zero limit),
    place_larger isDefined_zero hlimit]
  by_cases ha : a.IsDefined
  · rw [place_larger isDefined_zero (isDefined_smaller ha limit), place_smaller ha hlimit]
    exact ⟨le_max_left _ _, max_le_max_left _ (min_le_right _ _)⟩
  · have hundefined : Scalar.larger 0 (Scalar.smaller a limit) = 0 := by
      unfold Scalar.smaller Scalar.larger
      rw [if_neg fun h => ha (lt_iff.mp h).2.1, if_neg fun h => ha (lt_iff.mp h).2.1]
    rw [hundefined]
    exact ⟨le_refl _, le_max_left _ _⟩

theorem exists_reading_of_isFinite {a : Number} (h : Scalar.isFinite a = true) :
    ∃ negative value, Double.reading a.toDouble = .finite negative value := by
  have hreading : Scalar.reading a = Double.reading a.toDouble := rfl
  rw [Scalar.isFinite, hreading] at h
  cases hr : Double.reading a.toDouble with
  | finite negative value => exact ⟨negative, value, rfl⟩
  | infinite _ | undefined =>
    rw [hr] at h
    contradiction

/-- The difference of finite numbers may be infinite, but it is defined. -/
theorem isDefined_sub {a b : Number} (ha : Scalar.isFinite a = true)
    (hb : Scalar.isFinite b = true) : (a - b).IsDefined := by
  have hdoubles : Double.reading (a.toDouble - b.toDouble) ≠ .undefined := by
    obtain ⟨_, _, hx⟩ := exists_reading_of_isFinite ha
    obtain ⟨_, _, hy⟩ := exists_reading_of_isFinite hb
    exact Double.reading_sub_ne_undefined hx hy
  cases a with
  | whole m =>
    cases b with
    | whole n => exact Reading.noConfusion
    | double y => exact hdoubles
  | double x =>
    cases b with
    | whole n => exact hdoubles
    | double y => exact hdoubles

end Number

end EntityDiagram
