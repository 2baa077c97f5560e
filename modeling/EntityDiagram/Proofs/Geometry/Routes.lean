import EntityDiagram.Proofs.Drawing.Directions
import EntityDiagram.Proofs.Geometry.Lines

/-! Routes in exact numbers. A route turns at right angles, goes no farther than its ends are apart
along the axes, and is the same in both directions. -/
namespace EntityDiagram.Route

/-- Horizontal, vertical, horizontal. The outer segments lead somewhere; the one between the bends
may be a single point. -/
structure IsHorizontal (r : Route Rat) : Prop where
  first : r.firstBend.y = r.start.y ∧ r.firstBend.x ≠ r.start.x
  middle : r.secondBend.x = r.firstBend.x
  last : r.finish.y = r.secondBend.y ∧ r.finish.x ≠ r.secondBend.x

/-- Vertical, horizontal, vertical. From a point to itself all segments are single points. -/
structure IsVertical (r : Route Rat) : Prop where
  first : r.firstBend.x = r.start.x
  middle : r.secondBend.y = r.firstBend.y
  last : r.finish.x = r.secondBend.x

def reverse (r : Route Rat) : Route Rat :=
  ⟨r.finish, r.secondBend, r.firstBend, r.start, r.midpoint⟩

/-- The route that leaves its start horizontally. -/
def across (start finish : Point Rat) : Route Rat :=
  let m := Point.middle start finish
  ⟨start, ⟨m.x, start.y⟩, ⟨m.x, finish.y⟩, finish, m⟩

/-- The route that leaves its start vertically. -/
def down (start finish : Point Rat) : Route Rat :=
  let m := Point.middle start finish
  ⟨start, ⟨start.x, m.y⟩, ⟨finish.x, m.y⟩, finish, m⟩

theorem halfway_eq (a b : Rat) : a + (b - a) / 2 = (a + b) / 2 := by ring

variable (start finish : Point Rat)

theorem between_eq : between start finish =
    if |finish.y - start.y| < |finish.x - start.x| then across start finish
    else down start finish := by
  unfold between
  simp only [Scalar.abs_exact]
  split_ifs
  · change (⟨start, ⟨start.x + (finish.x - start.x) / 2, start.y⟩,
      ⟨start.x + (finish.x - start.x) / 2, finish.y⟩, finish,
      ⟨start.x + (finish.x - start.x) / 2, (start.y + finish.y) / 2⟩⟩ : Route Rat) = _
    rw [halfway_eq]
    rfl
  · change (⟨start, ⟨start.x, start.y + (finish.y - start.y) / 2⟩,
      ⟨finish.x, start.y + (finish.y - start.y) / 2⟩, finish,
      ⟨(start.x + finish.x) / 2, start.y + (finish.y - start.y) / 2⟩⟩ : Route Rat) = _
    rw [halfway_eq]
    rfl

theorem reverse_across : (across start finish).reverse = across finish start := by
  simp only [reverse, across, Point.middle_comm finish start]

theorem reverse_down : (down start finish).reverse = down finish start := by
  simp only [reverse, down, Point.middle_comm finish start]

theorem between_swap : between finish start = (between start finish).reverse := by
  rw [between_eq, between_eq, abs_sub_comm start.x, abs_sub_comm start.y]
  split_ifs
  · exact (reverse_across start finish).symm
  · exact (reverse_down start finish).symm

/-- The middle of two coordinates lies between them, whichever is the greater. -/
theorem advances_turn (a b : Rat) : Polyline.Advances [a, (a + b) / 2, (a + b) / 2, b] ∧
    Polyline.Advances [a, a, b, b] := by
  rcases le_total a b with h | h
  · constructor
    · exact .inl (by simp; constructor <;> linarith)
    · exact .inl (by simp [h])
  · constructor
    · exact .inr (by simp; constructor <;> linarith)
    · exact .inr (by simp [h])

theorem advances_points_between :
    Polyline.Advances ((between start finish).points.map (·.x)) ∧
    Polyline.Advances ((between start finish).points.map (·.y)) := by
  rw [between_eq]
  split_ifs
  · exact ⟨(advances_turn start.x finish.x).1, (advances_turn start.y finish.y).2⟩
  · exact ⟨(advances_turn start.x finish.x).2, (advances_turn start.y finish.y).1⟩

theorem points_between : (between start finish).points =
    [start, (between start finish).firstBend, (between start finish).secondBend, finish] := by
  rw [between_eq]
  split_ifs <;> rfl

theorem ends_between : (between start finish).start = start ∧
    (between start finish).finish = finish := by
  rw [between_eq]
  split_ifs <;> exact ⟨rfl, rfl⟩

theorem length_points_between : Polyline.length (between start finish).points =
    |finish.x - start.x| + |finish.y - start.y| := by
  obtain ⟨hx, hy⟩ := advances_points_between start finish
  rw [points_between] at hx hy ⊢
  exact @Polyline.length_eq_of_advances start finish [_, _] hx hy

/-- The middle of a route is the middle of its ends and of its bends. -/
theorem midpoint_between : (between start finish).midpoint = Point.middle start finish ∧
    (between start finish).midpoint =
      Point.middle (between start finish).firstBend (between start finish).secondBend := by
  rw [between_eq]
  split_ifs
  · refine ⟨rfl, ?_⟩
    simp only [across, Point.middle, add_self_div_two]
  · refine ⟨rfl, ?_⟩
    simp only [down, Point.middle, add_self_div_two]

theorem isVertical_down : (down start finish).IsVertical := ⟨rfl, rfl, rfl⟩

theorem isHorizontal_across (h : finish.x ≠ start.x) : (across start finish).IsHorizontal := by
  refine ⟨⟨rfl, ?_⟩, rfl, rfl, ?_⟩
  · intro hsame
    change (start.x + finish.x) / 2 = start.x at hsame
    exact h (by linarith)
  · intro hsame
    change finish.x = (start.x + finish.x) / 2 at hsame
    exact h (by linarith)

theorem IsHorizontal.not_isVertical {r : Route Rat} (h : r.IsHorizontal) : ¬r.IsVertical :=
  fun hvertical => h.first.2 hvertical.first

/-- The greater difference decides how a route turns. -/
theorem turns_between : ((between start finish).IsHorizontal ↔
      |finish.y - start.y| < |finish.x - start.x|) ∧
    ((between start finish).IsVertical ↔ ¬|finish.y - start.y| < |finish.x - start.x|) := by
  rw [between_eq]
  split_ifs with h
  · have hne : finish.x ≠ start.x := sub_ne_zero.mp (ne_zero_of_horizontal h)
    have hacross := isHorizontal_across start finish hne
    exact ⟨iff_of_true hacross h, iff_of_false hacross.not_isVertical (not_not.mpr h)⟩
  · have hdown := isVertical_down start finish
    exact ⟨iff_of_false (fun hacross => hacross.not_isVertical hdown) h, iff_of_true hdown h⟩

theorem isHorizontal_or_isVertical_between :
    (between start finish).IsHorizontal ∨ (between start finish).IsVertical := by
  obtain ⟨hhorizontal, hvertical⟩ := turns_between start finish
  by_cases h : |finish.y - start.y| < |finish.x - start.x|
  · exact .inl (hhorizontal.mpr h)
  · exact .inr (hvertical.mpr h)

/-- In exact arithmetic there is a route between any two points, through two bends. Its segments
alternate, the outer ones being horizontal exactly where the ends differ more in width than in
height. It never turns back on an axis, so it is as long as its ends are apart along the axes. Its
middle lies on the segment between the bends, half-way between them, and half-way between the ends;
the way back has the same points and the same middle. -/
theorem route_shortest_and_reversible (start finish : Point Rat) (subject : Option String) :
    ∃ r back, route start finish subject = .ok r ∧ route finish start subject = .ok back ∧
      r.points = [start, r.firstBend, r.secondBend, finish] ∧
      (r.IsHorizontal ↔ |finish.y - start.y| < |finish.x - start.x|) ∧
      (r.IsVertical ↔ ¬|finish.y - start.y| < |finish.x - start.x|) ∧
      Polyline.Advances (r.points.map (·.x)) ∧ Polyline.Advances (r.points.map (·.y)) ∧
      Polyline.length r.points = |finish.x - start.x| + |finish.y - start.y| ∧
      Point.OnSegment r.firstBend r.secondBend r.midpoint ∧
      r.midpoint = Point.middle r.firstBend r.secondBend ∧
      r.midpoint = Point.middle start finish ∧
      back.points = r.points.reverse ∧ back.midpoint = r.midpoint := by
  obtain ⟨hhorizontal, hvertical⟩ := turns_between start finish
  obtain ⟨hx, hy⟩ := advances_points_between start finish
  obtain ⟨hends, hbends⟩ := midpoint_between start finish
  refine ⟨_, _, route_exact start finish subject, route_exact finish start subject, ?_,
    hhorizontal, hvertical, hx, hy, length_points_between start finish, ?_, hbends, hends, ?_⟩
  · exact points_between start finish
  · rw [hbends]
    exact Point.onSegment_middle _ _
  · rw [between_swap]
    exact ⟨rfl, rfl⟩

end EntityDiagram.Route
