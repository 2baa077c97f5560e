import EntityDiagram.Plane
import Mathlib.Algebra.Order.Ring.Rat
import Mathlib.Data.List.Chain
import Mathlib.Tactic.Linarith
import Mathlib.Tactic.Ring

/-! Lines, segments and polylines of the plane, in exact numbers. A polyline that never turns back
on an axis is as long as the way between its ends along the axes. -/
namespace EntityDiagram

namespace Point

/-- The point some part of the way from one point to another. -/
def partway (a b : Point Rat) (t : Rat) : Point Rat :=
  ⟨a.x + t * (b.x - a.x), a.y + t * (b.y - a.y)⟩

def OnLine (a b p : Point Rat) : Prop := ∃ t, p = partway a b t

def OnSegment (a b p : Point Rat) : Prop := ∃ t, 0 ≤ t ∧ t ≤ 1 ∧ p = partway a b t

def middle (a b : Point Rat) : Point Rat := ⟨(a.x + b.x) / 2, (a.y + b.y) / 2⟩

theorem middle_comm (a b : Point Rat) : middle a b = middle b a := by
  rw [middle, middle, add_comm a.x, add_comm a.y]

theorem onSegment_middle (a b : Point Rat) : OnSegment a b (middle a b) := by
  refine ⟨1 / 2, by norm_num, by norm_num, ?_⟩
  rw [middle, partway, Point.mk.injEq]
  constructor <;> ring

end Point

namespace Polyline

/-- The way along a list of coordinates, back and forth. -/
def travel : List Rat → Rat
  | a :: b :: rest => |b - a| + travel (b :: rest)
  | _ => 0

/-- The length of a polyline whose segments lie along the axes. -/
def length : List (Point Rat) → Rat
  | a :: b :: rest => (|b.x - a.x| + |b.y - a.y|) + length (b :: rest)
  | _ => 0

/-- Coordinates that never turn back. -/
def Advances (coordinates : List Rat) : Prop :=
  coordinates.IsChain (· ≤ ·) ∨ coordinates.IsChain (· ≥ ·)

theorem length_eq (points : List (Point Rat)) :
    length points = travel (points.map (·.x)) + travel (points.map (·.y)) := by
  induction points with
  | nil => simp [length, travel]
  | cons a rest ih =>
    cases rest with
    | nil => simp [length, travel]
    | cons b rest =>
      simp only [List.map_cons] at ih
      simp only [length, travel, List.map_cons, ih]
      ring

theorem travel_neg (coordinates : List Rat) :
    travel (coordinates.map (- ·)) = travel coordinates := by
  induction coordinates with
  | nil => rfl
  | cons a rest ih =>
    cases rest with
    | nil => rfl
    | cons b rest =>
      simp only [List.map_cons] at ih
      simp only [travel, List.map_cons, ih]
      rw [neg_sub_neg, abs_sub_comm]

theorem travel_eq_sub (a b : Rat) (rest : List Rat)
    (h : (a :: (rest ++ [b])).IsChain (· ≤ ·)) : a ≤ b ∧ travel (a :: (rest ++ [b])) = b - a := by
  induction rest generalizing a with
  | nil =>
    have hle : a ≤ b := by simpa using h
    simp [travel, hle]
  | cons c rest ih =>
    rw [List.cons_append, List.isChain_cons_cons] at h
    obtain ⟨hac, hrest⟩ := h
    obtain ⟨hcb, htravel⟩ := ih c hrest
    rw [List.cons_append, travel, htravel, abs_of_nonneg (sub_nonneg.mpr hac)]
    exact ⟨hac.trans hcb, by ring⟩

theorem travel_eq_abs (a b : Rat) (rest : List Rat) (h : Advances (a :: (rest ++ [b]))) :
    travel (a :: (rest ++ [b])) = |b - a| := by
  rcases h with h | h
  · obtain ⟨hle, htravel⟩ := travel_eq_sub a b rest h
    rw [htravel, abs_of_nonneg (sub_nonneg.mpr hle)]
  · have hneg : (-a :: (rest.map (- ·) ++ [-b])).IsChain (· ≤ ·) := by
      have hmap : ((a :: (rest ++ [b])).map (- ·)).IsChain (· ≤ ·) :=
        List.isChain_map_of_isChain (- ·) (fun _ _ => neg_le_neg) h
      simpa using hmap
    obtain ⟨hle, htravel⟩ := travel_eq_sub (-a) (-b) _ hneg
    have hsame := travel_neg (a :: (rest ++ [b]))
    rw [List.map_cons, List.map_append, List.map_singleton, htravel] at hsame
    rw [← hsame, abs_of_nonpos (by linarith)]
    ring

/-- The length of a polyline that never turns back. -/
theorem length_eq_of_advances {a b : Point Rat} {bends : List (Point Rat)}
    (hx : Advances ((a :: (bends ++ [b])).map (·.x)))
    (hy : Advances ((a :: (bends ++ [b])).map (·.y))) :
    length (a :: (bends ++ [b])) = |b.x - a.x| + |b.y - a.y| := by
  rw [length_eq]
  simp only [List.map_cons, List.map_append, List.map_nil] at hx hy ⊢
  rw [travel_eq_abs _ _ _ hx, travel_eq_abs _ _ _ hy]

end Polyline

end EntityDiagram
