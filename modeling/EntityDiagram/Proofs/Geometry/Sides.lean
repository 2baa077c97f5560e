import EntityDiagram.Proofs.Drawing.Directions
import Mathlib.Order.Interval.Set.Basic
import Mathlib.Tactic.Ring

/-! The sides of a box, in exact numbers. A direction leads to one side; what is computed for it is
the same for all four, once a point is read across the side and along it. -/
namespace EntityDiagram

/-- The sides of a rectangle. -/
inductive Side where
  | left
  | right
  | top
  | bottom
  deriving DecidableEq, Repr

namespace Side

def opposite : Side → Side
  | left => right
  | right => left
  | top => bottom
  | bottom => top

/-- The coordinate that stays the same on a side. -/
def across : Side → Point Rat → Rat
  | left, p | right, p => p.x
  | top, p | bottom, p => p.y

/-- The coordinate that runs along a side. -/
def along : Side → Point Rat → Rat
  | left, p | right, p => p.y
  | top, p | bottom, p => p.x

/-- One unit across a side to where the inside lies. -/
def inward : Side → Rat
  | left | top => 1
  | right | bottom => -1

/-- The side that a direction leads to, left or right where the direction is more horizontal than
vertical. -/
def facing (d : Point Rat) : Side :=
  if |d.y| < |d.x| then if 0 < d.x then right else left
  else if 0 < d.y then bottom else top

/-- How far a direction goes along a side for one unit across it. -/
def slope (s : Side) (d : Point Rat) : Rat := s.along d / |s.across d|

/-- A point one unit inward of another. -/
def Insets (s : Side) (e p : Point Rat) : Prop :=
  s.across p = s.across e + s.inward ∧ s.along p = s.along e

theorem eq_of_across_of_along (s : Side) {p q : Point Rat} (hacross : s.across p = s.across q)
    (halong : s.along p = s.along q) : p = q := by
  obtain ⟨px, py⟩ := p
  obtain ⟨qx, qy⟩ := q
  cases s <;> simp_all [across, along]

theorem inward_mul_inward (s : Side) : s.inward * s.inward = 1 := by
  cases s <;> norm_num [inward]

/-- What a direction does that leads to a side: it goes outward across it, and along it no
farther. -/
structure Faces (s : Side) (d : Point Rat) : Prop where
  outward : s.inward * s.across d < 0
  greater : |s.along d| ≤ |s.across d|

section Facing

variable {d : Point Rat}

theorem faces_facing (hd : ¬(d.x = 0 ∧ d.y = 0)) : (facing d).Faces d := by
  unfold facing
  split_ifs with hgreater hx hy
  · exact ⟨by simpa [inward, across] using hx, hgreater.le⟩
  · have hneg : d.x < 0 := lt_of_le_of_ne (not_lt.mp hx) (ne_zero_of_horizontal hgreater)
    exact ⟨by simpa [inward, across] using hneg, hgreater.le⟩
  · exact ⟨by simpa [inward, across] using hy, not_lt.mp hgreater⟩
  · have hneg : d.y < 0 :=
      lt_of_le_of_ne (not_lt.mp hy) (ne_zero_of_not_horizontal hd hgreater)
    exact ⟨by simpa [inward, across] using hneg, not_lt.mp hgreater⟩

/-- The way back leads to the opposite side. -/
theorem facing_neg (hd : ¬(d.x = 0 ∧ d.y = 0)) : facing ⟨-d.x, -d.y⟩ = (facing d).opposite := by
  simp only [facing, abs_neg, neg_pos]
  by_cases hgreater : |d.y| < |d.x|
  · rw [if_pos hgreater, if_pos hgreater]
    rcases (ne_zero_of_horizontal hgreater).lt_or_gt with hneg | hpos
    · rw [if_pos hneg, if_neg hneg.not_gt]
      rfl
    · rw [if_neg hpos.not_gt, if_pos hpos]
      rfl
  · rw [if_neg hgreater, if_neg hgreater]
    rcases (ne_zero_of_not_horizontal hd hgreater).lt_or_gt with hneg | hpos
    · rw [if_pos hneg, if_neg hneg.not_gt]
      rfl
    · rw [if_neg hpos.not_gt, if_pos hpos]
      rfl

variable {s : Side} (h : s.Faces d)
include h

theorem Faces.abs_across_pos : 0 < |s.across d| := by
  rw [abs_pos]
  intro hzero
  have houtward := h.outward
  rw [hzero, mul_zero] at houtward
  exact lt_irrefl 0 houtward

theorem Faces.across_eq : s.across d = -s.inward * |s.across d| := by
  have houtward := h.outward
  have habs : |s.across d| = -(s.inward * s.across d) := by
    cases s with
    | left | top =>
      simp only [inward, one_mul] at houtward ⊢
      exact abs_of_neg houtward
    | right | bottom =>
      simp only [inward, neg_one_mul, neg_neg, Left.neg_neg_iff] at houtward ⊢
      exact abs_of_pos houtward
  rw [habs, neg_mul_neg, ← mul_assoc, inward_mul_inward, one_mul]

theorem Faces.abs_slope_le : |s.slope d| ≤ 1 := by
  rw [slope, abs_div, abs_abs, div_le_one h.abs_across_pos]
  exact h.greater

end Facing

end Side

namespace Rect

/-- Where a side stands. -/
def border (r : Rect Rat) : Side → Rat
  | .left => r.x
  | .right => r.right
  | .top => r.y
  | .bottom => r.bottom

/-- Where a side begins. -/
def low (r : Rect Rat) : Side → Rat
  | .left | .right => r.y
  | .top | .bottom => r.x

/-- The length of a side. -/
def length (r : Rect Rat) : Side → Rat
  | .left | .right => r.height
  | .top | .bottom => r.width

/-- The distance of a side from the opposite one. -/
def depth (r : Rect Rat) : Side → Rat
  | .left | .right => r.width
  | .top | .bottom => r.height

/-- What a side covers along it. -/
def span (r : Rect Rat) (s : Side) : Set Rat := Set.Icc (r.low s) (r.low s + r.length s)

/-- A coordinate along a side, kept within it. -/
def clamp (r : Rect Rat) (s : Side) (a : Rat) : Rat :=
  min (max a (r.low s)) (r.low s + r.length s)

/-- Half of a side from its middle, as steep as the direction. -/
def interpolated (r : Rect Rat) (s : Side) (d : Point Rat) : Rat :=
  s.along r.center + r.length s / 2 * s.slope d

variable (r : Rect Rat) (s : Side)

theorem along_center : s.along r.center = r.low s + r.length s / 2 := by cases s <;> rfl

theorem border_eq : r.border s = s.across r.center - s.inward * (r.depth s / 2) := by
  cases s <;> simp only [border, Side.across, Side.inward, depth, center_exact, right_exact,
    bottom_exact] <;> ring

theorem clamp_eq_self {a : Rat} (h : a ∈ r.span s) : r.clamp s a = a := by
  rw [clamp, max_eq_left h.1, min_eq_left h.2]

/-- What is interpolated lies within the side without being kept there. -/
theorem interpolated_mem_span {d : Point Rat} (h : s.Faces d) (hlength : 0 ≤ r.length s) :
    r.interpolated s d ∈ r.span s := by
  have hhalf : 0 ≤ r.length s / 2 := by linarith
  obtain ⟨hleast, hmost⟩ := abs_le.mp h.abs_slope_le
  have hlow := mul_le_mul_of_nonneg_left hleast hhalf
  have hhigh := mul_le_mul_of_nonneg_left hmost hhalf
  rw [interpolated, along_center]
  constructor
  · linarith
  · linarith

/-- An end of a connector before it is moved inward. -/
theorem exists_edgePoint_exact {d : Point Rat} (hd : ¬(d.x = 0 ∧ d.y = 0)) :
    ∃ e, r.edgePoint d.x d.y = .ok e ∧
      (Side.facing d).across e = r.border (Side.facing d) ∧
      (Side.facing d).along e = r.clamp (Side.facing d) (r.interpolated (Side.facing d) d) := by
  by_cases hhorizontal : |d.y| < |d.x|
  · refine ⟨_, r.edgePoint_of_horizontal hhorizontal, ?_⟩
    rw [Side.facing, if_pos hhorizontal]
    split_ifs
    · refine ⟨?_, rfl⟩
      change r.x + r.width / 2 + r.width / 2 = r.x + r.width
      ring
    · refine ⟨?_, rfl⟩
      change r.x + r.width / 2 + -(r.width / 2) = r.x
      ring
  · have hy := ne_zero_of_not_horizontal hd hhorizontal
    refine ⟨_, r.edgePoint_of_not_horizontal hhorizontal hy, ?_⟩
    rw [Side.facing, if_neg hhorizontal]
    split_ifs
    · refine ⟨?_, rfl⟩
      change r.y + r.height / 2 + r.height / 2 = r.y + r.height
      ring
    · refine ⟨?_, rfl⟩
      change r.y + r.height / 2 + -(r.height / 2) = r.y
      ring

end Rect

/-- Moving inward is one step across the facing side. -/
theorem insets_inset (d e : Point Rat) : (Side.facing d).Insets e (inset d.x d.y e) := by
  unfold Side.facing inset
  by_cases hhorizontal : |d.y| < |d.x|
  · rw [if_pos hhorizontal, if_pos (isHorizontal_exact.mpr hhorizontal)]
    split_ifs <;> exact ⟨rfl, rfl⟩
  · rw [if_neg hhorizontal, if_neg (mt isHorizontal_exact.mp hhorizontal)]
    split_ifs <;> exact ⟨rfl, rfl⟩

namespace Rect

variable {source target : Rect Rat}

theorem across_towards (s : Side) (source target : Rect Rat) :
    s.across (source.towards target) = s.across target.center - s.across source.center := by
  cases s <;> rfl

theorem along_towards (s : Side) (source target : Rect Rat) :
    s.along (source.towards target) = s.along target.center - s.along source.center := by
  cases s <;> rfl

/-- The side of a box that faces another box. -/
def exitSide (source target : Rect Rat) : Side := Side.facing (source.towards target)

theorem towards_eq_zero_iff : (source.towards target).x = 0 ∧ (source.towards target).y = 0 ↔
    source.center = target.center := by
  simp only [towards, sub_eq_zero, center, Point.mk.injEq]
  exact and_congr eq_comm eq_comm

theorem faces_exitSide (h : source.center ≠ target.center) :
    (source.exitSide target).Faces (source.towards target) :=
  Side.faces_facing (mt towards_eq_zero_iff.mp h)

/-- Two boxes face each other with opposite sides. -/
theorem exitSide_swap (h : source.center ≠ target.center) :
    target.exitSide source = (source.exitSide target).opposite := by
  have hback : target.towards source =
      ⟨-(source.towards target).x, -(source.towards target).y⟩ := by
    simp only [towards, neg_sub]
  rw [exitSide, hback]
  exact Side.facing_neg (mt towards_eq_zero_iff.mp h)

/-- Between different centers an end of a connector lies one unit inward of the side that faces the
other box, at the coordinate that is interpolated and kept within that side. -/
theorem exists_connectionPoint_exact (h : source.center ≠ target.center)
    (subject : Option String) : ∃ e p, connectionPoint source target subject = .ok p ∧
      (source.exitSide target).Insets e p ∧
      (source.exitSide target).across e = source.border (source.exitSide target) ∧
      (source.exitSide target).along e = source.clamp (source.exitSide target)
        (source.interpolated (source.exitSide target) (source.towards target)) := by
  have hd := mt towards_eq_zero_iff.mp h
  obtain ⟨e, he, hedge⟩ := source.exists_edgePoint_exact hd
  refine ⟨e, _, ?_, insets_inset _ e, hedge⟩
  rw [connectionPoint_exact hd, he]
  rfl

end Rect

end EntityDiagram
