import EntityDiagram.Proofs.Geometry.Lines
import EntityDiagram.Proofs.Geometry.Sides
import Mathlib.Tactic.FieldSimp

/-! Connectors and the line through the centers of their boxes. A connector leaves its box on the
side that this line passes first, but not where the line passes it: along the side it goes by half
of its length, not by half of the distance between the sides, so the way is right for squares and
askew for other boxes. -/
namespace EntityDiagram

theorem Side.across_partway (s : Side) (a b : Point Rat) (t : Rat) :
    s.across (Point.partway a b t) = s.across a + t * (s.across b - s.across a) := by
  cases s <;> rfl

theorem Side.along_partway (s : Side) (a b : Point Rat) (t : Rat) :
    s.along (Point.partway a b t) = s.along a + t * (s.along b - s.along a) := by
  cases s <;> rfl

namespace Rect

/-- Where the line through the centers of two boxes leaves the first: at the point where it meets
the facing side or, where it passes beside that side, at the nearer end of the side. -/
def LeavesOnCenterLine (source target : Rect Rat) (e : Point Rat) : Prop :=
  let s := source.exitSide target
  ∃ p, Point.OnLine source.center target.center p ∧ s.across p = source.border s ∧
    (s.along p ∈ source.span s → e = p) ∧
    (s.along p < source.low s → s.across e = source.border s ∧ s.along e = source.low s) ∧
    (source.low s + source.length s < s.along p →
      s.across e = source.border s ∧ s.along e = source.low s + source.length s)

/-- The coordinate along the facing side at which the line through both centers passes it. -/
def crossing (source target : Rect Rat) : Rat :=
  (source.exitSide target).along source.center + source.depth (source.exitSide target) / 2 *
    (source.exitSide target).slope (source.towards target)

/-- The point that a direction leads to from the center when it is stretched like the box. -/
def stretched (source target : Rect Rat) : Point Rat :=
  ⟨source.center.x + source.width * (source.towards target).x,
    source.center.y + source.height * (source.towards target).y⟩

theorem across_stretched (s : Side) (source target : Rect Rat) :
    s.across (source.stretched target) =
      s.across source.center + source.depth s * s.across (source.towards target) := by
  cases s <;> rfl

theorem along_stretched (s : Side) (source target : Rect Rat) :
    s.along (source.stretched target) =
      s.along source.center + source.length s * s.along (source.towards target) := by
  cases s <;> rfl

/-- Stretching the direction makes no difference: the first box is a square, the centers are level
or one above the other, or they are as far apart in width as in height and the first box is not
wider than high. -/
def Undistorted (source target : Rect Rat) : Prop :=
  source.width = source.height ∨ (source.towards target).x = 0 ∨ (source.towards target).y = 0 ∨
    |(source.towards target).x| = |(source.towards target).y| ∧ source.width ≤ source.height

section Line

variable {source target : Rect Rat} (h : source.center ≠ target.center)
include h

theorem along_eq_crossing {p : Point Rat} (hline : Point.OnLine source.center target.center p)
    (hborder : (source.exitSide target).across p = source.border (source.exitSide target)) :
    (source.exitSide target).along p = source.crossing target := by
  have hfaces := faces_exitSide h
  rw [crossing]
  generalize source.exitSide target = s at hfaces hborder ⊢
  have hpos := hfaces.abs_across_pos
  have hacross := hfaces.across_eq
  rw [Side.slope]
  generalize |s.across (source.towards target)| = m at hpos hacross ⊢
  obtain ⟨t, rfl⟩ := hline
  rw [Side.across_partway, ← across_towards, hacross, border_eq] at hborder
  have ht : t = source.depth s / 2 / m := by
    rw [eq_div_iff hpos.ne']
    apply mul_left_cancel₀ (left_ne_zero_of_mul_eq_one s.inward_mul_inward)
    linarith
  rw [Side.along_partway, ← along_towards, ht]
  ring

theorem exists_onLine_border : ∃ p, Point.OnLine source.center target.center p ∧
    (source.exitSide target).across p = source.border (source.exitSide target) := by
  have hfaces := faces_exitSide h
  generalize source.exitSide target = s at hfaces ⊢
  have hpos := hfaces.abs_across_pos
  have hacross := hfaces.across_eq
  generalize |s.across (source.towards target)| = m at hpos hacross
  refine ⟨_, ⟨source.depth s / 2 / m, rfl⟩, ?_⟩
  rw [Side.across_partway, ← across_towards, hacross, border_eq]
  field_simp
  ring

/-- To leave a box on the line through both centers is to leave it where that line passes the facing
side, kept within the side. -/
theorem leavesOnCenterLine_iff (hlength : 0 ≤ source.length (source.exitSide target))
    {e : Point Rat}
    (hborder : (source.exitSide target).across e = source.border (source.exitSide target)) :
    source.LeavesOnCenterLine target e ↔ (source.exitSide target).along e =
      source.clamp (source.exitSide target) (source.crossing target) := by
  obtain ⟨q, hqline, hqborder⟩ := exists_onLine_border h
  have hq := along_eq_crossing h hqline hqborder
  rw [clamp]
  constructor
  · rintro ⟨p, hline, hpborder, hwithin, hbefore, hafter⟩
    have hp := along_eq_crossing h hline hpborder
    rw [← hp]
    rcases lt_or_ge ((source.exitSide target).along p) (source.low (source.exitSide target))
      with hlt | hle
    · rw [max_eq_right hlt.le, min_eq_left (by linarith), (hbefore hlt).2]
    · rw [max_eq_left hle]
      rcases lt_or_ge (source.low (source.exitSide target) + source.length (source.exitSide target))
        ((source.exitSide target).along p) with hgt | hge
      · rw [min_eq_right hgt.le, (hafter hgt).2]
      · rw [min_eq_left hge, hwithin ⟨hle, hge⟩]
  · intro halong
    rw [← hq] at halong
    refine ⟨q, hqline, hqborder, ?_, ?_, ?_⟩
    · rintro ⟨hle, hge⟩
      rw [max_eq_left hle, min_eq_left hge] at halong
      exact (source.exitSide target).eq_of_across_of_along (hborder.trans hqborder.symm) halong
    · intro hlt
      rw [max_eq_right hlt.le, min_eq_left (by linarith)] at halong
      exact ⟨hborder, halong⟩
    · intro hgt
      rw [max_eq_left (by linarith), min_eq_right hgt.le] at halong
      exact ⟨hborder, halong⟩

end Line

/-- A slope times one number is the slope times another one, kept within the first, only where both
numbers are the same or both products are kept at a bound. -/
theorem mul_eq_min_max_iff {l m slope : Rat} (hl : 0 < l) (hslope : |slope| ≤ 1) :
    l * slope = min (max (m * slope) (-l)) l ↔ l = m ∨ slope = 0 ∨ |slope| = 1 ∧ l ≤ m := by
  obtain ⟨hleast, hmost⟩ := abs_le.mp hslope
  constructor
  · intro h
    rcases lt_or_ge l (m * slope) with hover | hmax
    · rw [max_eq_left (by linarith), min_eq_right hover.le] at h
      obtain rfl : slope = 1 := mul_left_cancel₀ hl.ne' (h.trans (mul_one l).symm)
      rw [mul_one] at hover
      exact .inr (.inr ⟨abs_one, hover.le⟩)
    · rcases lt_or_ge (m * slope) (-l) with hunder | hmin
      · rw [max_eq_right hunder.le, min_eq_left (by linarith)] at h
        obtain rfl : slope = -1 := mul_left_cancel₀ hl.ne' (h.trans (mul_neg_one l).symm)
        rw [mul_neg_one] at hunder
        exact .inr (.inr ⟨by rw [abs_neg, abs_one], by linarith⟩)
      · rw [max_eq_left hmin, min_eq_left hmax] at h
        have hproduct : (l - m) * slope = 0 := by rw [sub_mul, h, sub_self]
        rcases mul_eq_zero.mp hproduct with hsame | hzero
        · exact .inl (sub_eq_zero.mp hsame)
        · exact .inr (.inl hzero)
  · rintro (rfl | rfl | ⟨hone, hle⟩)
    · have hlow := mul_le_mul_of_nonneg_left hleast hl.le
      have hhigh := mul_le_mul_of_nonneg_left hmost hl.le
      rw [max_eq_left (by linarith), min_eq_left (by linarith)]
    · rw [mul_zero, mul_zero, max_eq_left (by linarith), min_eq_left hl.le]
    · rcases eq_or_eq_neg_of_abs_eq hone with rfl | rfl
      · rw [mul_one, mul_one, max_eq_left (by linarith), min_eq_right hle]
      · rw [mul_neg_one, mul_neg_one, max_eq_right (neg_le_neg hle), min_eq_left (by linarith)]

theorem clamp_center_add (r : Rect Rat) (s : Side) (a : Rat) :
    r.clamp s (s.along r.center + a) =
      s.along r.center + min (max a (-(r.length s / 2))) (r.length s / 2) := by
  have hlow : r.low s = s.along r.center + -(r.length s / 2) := by rw [along_center]; ring
  have hhigh : r.low s + r.length s = s.along r.center + r.length s / 2 := by
    rw [along_center]; ring
  rw [clamp, hhigh, hlow, max_add_add_left, min_add_add_left]

/-- Interpolating with half the length of a side, instead of half the distance to the opposite one,
makes no difference in these cases only. -/
theorem interpolated_eq_clamp_iff {r : Rect Rat} {s : Side} {d : Point Rat} (h : s.Faces d)
    (hlength : 0 < r.length s) :
    r.interpolated s d = r.clamp s (s.along r.center + r.depth s / 2 * s.slope d) ↔
      r.length s = r.depth s ∨ s.along d = 0 ∨
        |s.along d| = |s.across d| ∧ r.length s ≤ r.depth s := by
  have hne := h.abs_across_pos.ne'
  have hzero : s.slope d = 0 ↔ s.along d = 0 := by
    rw [Side.slope, div_eq_zero_iff, or_iff_left hne]
  have hone : |s.slope d| = 1 ↔ |s.along d| = |s.across d| := by
    rw [Side.slope, abs_div, abs_abs, div_eq_one_iff_eq hne]
  rw [interpolated, clamp_center_add, add_right_inj,
    mul_eq_min_max_iff (half_pos hlength) h.abs_slope_le, hzero, hone,
    div_left_inj' two_ne_zero, div_le_div_iff_of_pos_right two_pos]

section Leaving

variable {source target : Rect Rat} (h : source.center ≠ target.center)
include h

theorem exitSide_cases_iff :
    (source.length (source.exitSide target) = source.depth (source.exitSide target) ∨
      (source.exitSide target).along (source.towards target) = 0 ∨
      |(source.exitSide target).along (source.towards target)| =
          |(source.exitSide target).across (source.towards target)| ∧
        source.length (source.exitSide target) ≤ source.depth (source.exitSide target)) ↔
    source.Undistorted target := by
  have hd := mt towards_eq_zero_iff.mp h
  unfold Undistorted exitSide Side.facing
  by_cases hgreater : |(source.towards target).y| < |(source.towards target).x|
  · have hx := ne_zero_of_horizontal hgreater
    rw [if_pos hgreater]
    split_ifs
    all_goals
      simp only [length, depth, Side.along, Side.across, hgreater.ne, hgreater.ne', hx, false_and,
        or_false, false_or]
      rw [eq_comm (a := source.height)]
  · have hy := ne_zero_of_not_horizontal hd hgreater
    rw [if_neg hgreater]
    split_ifs
    all_goals simp only [length, depth, Side.along, Side.across, hy, false_or]

theorem onLine_stretched {e : Point Rat}
    (hborder : (source.exitSide target).across e = source.border (source.exitSide target))
    (halong : (source.exitSide target).along e =
      source.interpolated (source.exitSide target) (source.towards target)) :
    Point.OnLine source.center (source.stretched target) e := by
  have hfaces := faces_exitSide h
  generalize source.exitSide target = s at hfaces hborder halong
  have hpos := hfaces.abs_across_pos
  have hacross := hfaces.across_eq
  rw [interpolated, Side.slope] at halong
  generalize |s.across (source.towards target)| = m at hpos hacross halong
  refine ⟨1 / (2 * m), s.eq_of_across_of_along ?_ ?_⟩
  · rw [hborder, border_eq, Side.across_partway, across_stretched, hacross]
    field_simp
    ring
  · rw [halong, Side.along_partway, along_stretched]
    field_simp
    ring

/-- An end of a connector before it is moved inward. It lies on the facing side, where the line from
center to center would leave the box if its direction were stretched like the box. That is where the
line itself leaves, or the nearer end of the side where the line passes beside it, only if
stretching makes no difference. -/
theorem leaves_on_centerLine_iff (hwidth : 0 < source.width) (hheight : 0 < source.height)
    (subject : Option String) : ∃ e p, connectionPoint source target subject = .ok p ∧
      (source.exitSide target).Insets e p ∧
      (source.exitSide target).across e = source.border (source.exitSide target) ∧
      (source.exitSide target).along e ∈ source.span (source.exitSide target) ∧
      Point.OnLine source.center (source.stretched target) e ∧
      (source.LeavesOnCenterLine target e ↔ source.Undistorted target) := by
  have hfaces := faces_exitSide h
  have hlength : 0 < source.length (source.exitSide target) := by
    cases source.exitSide target <;> assumption
  obtain ⟨e, p, hp, hinsets, hborder, hclamp⟩ := exists_connectionPoint_exact h subject
  have hmem := source.interpolated_mem_span _ hfaces hlength.le
  rw [clamp_eq_self _ _ hmem] at hclamp
  refine ⟨e, p, hp, hinsets, hborder, hclamp ▸ hmem, onLine_stretched h hborder hclamp, ?_⟩
  rw [leavesOnCenterLine_iff h hlength.le hborder, hclamp, crossing,
    interpolated_eq_clamp_iff hfaces hlength, exitSide_cases_iff h]

end Leaving

/-- A high box and a low one on its diagonal: the line passes below the corner, and the connector
leaves at the corner. -/
theorem leaves_on_centerLine_iff_of_diagonal :
    let source : Rect Rat := ⟨0, 0, 40, 60⟩
    let target : Rect Rat := ⟨40, 90, 100, 20⟩
    0 < source.width ∧ 0 < source.height ∧ source.center ≠ target.center ∧
    connectionPoint source target none = .ok ⟨40, 59⟩ ∧
    source.LeavesOnCenterLine target ⟨40, 60⟩ := by
  intro source target
  have hwidth : 0 < source.width := by decide +kernel
  have hheight : 0 < source.height := by decide +kernel
  have hcenter : source.center ≠ target.center := by decide +kernel
  have hvalue : connectionPoint source target none = .ok ⟨40, 59⟩ := by decide +kernel
  obtain ⟨e, p, hp, ⟨hacross, halong⟩, -, -, -, hleaves⟩ :=
    leaves_on_centerLine_iff hcenter hwidth hheight none
  obtain rfl : (⟨40, 59⟩ : Point Rat) = p := Except.ok.inj (hvalue.symm.trans hp)
  have hside : source.exitSide target = .bottom := by decide +kernel
  rw [hside] at hacross halong
  have hedge : e = ⟨40, 60⟩ := by
    apply Side.bottom.eq_of_across_of_along
    · change (59 : Rat) = e.y + -1 at hacross
      change e.y = 60
      linarith
    · exact halong.symm
  have hundistorted : source.Undistorted target :=
    .inr (.inr (.inr ⟨by decide +kernel, by decide +kernel⟩))
  exact ⟨hwidth, hheight, hcenter, hvalue, hedge ▸ hleaves.mpr hundistorted⟩

/-- A wide box is left too near to the middle of its side. -/
theorem not_forall_leavesOnCenterLine : ¬∀ (source target : Rect Rat) (subject : Option String),
    0 < source.width → 0 < source.height → 0 < target.width → 0 < target.height →
      source.center ≠ target.center → ∃ e p, connectionPoint source target subject = .ok p ∧
        (source.exitSide target).Insets e p ∧ source.LeavesOnCenterLine target e := by
  let source : Rect Rat := ⟨0, 0, 100, 50⟩
  let target : Rect Rat := ⟨200, 50, 100, 50⟩
  intro hall
  have hcenter : source.center ≠ target.center := by decide +kernel
  obtain ⟨e, p, hp, ⟨hacross, halong⟩, hleaves⟩ := hall source target none (by decide +kernel)
    (by decide +kernel) (by decide +kernel) (by decide +kernel) hcenter
  have hvalue : connectionPoint source target none = .ok ⟨99, 125 / 4⟩ := by decide +kernel
  obtain rfl : (⟨99, 125 / 4⟩ : Point Rat) = p := Except.ok.inj (hvalue.symm.trans hp)
  have hside : source.exitSide target = .right := by decide +kernel
  have hlength : 0 ≤ source.length (source.exitSide target) := by decide +kernel
  have hborder : (source.exitSide target).across e = source.border (source.exitSide target) := by
    rw [hside] at hacross ⊢
    change (99 : Rat) = e.x + -1 at hacross
    change e.x = 0 + 100
    linarith
  have hkept : source.clamp (source.exitSide target) (source.crossing target) = 75 / 2 := by
    decide +kernel
  rw [leavesOnCenterLine_iff hcenter hlength hborder, hkept, ← halong, hside] at hleaves
  exact absurd hleaves (by decide +kernel : (125 / 4 : Rat) ≠ 75 / 2)

end Rect

end EntityDiagram
