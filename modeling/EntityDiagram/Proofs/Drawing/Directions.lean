import EntityDiagram.Proofs.Drawing.Overflow
import EntityDiagram.Proofs.Layout.Columns
import Mathlib.Algebra.Order.Group.Abs

/-! Connectors in exact arithmetic. An end of a connector does not go beyond the side of its box
that faces the other box, so between boxes that are apart the two ends are different points, and
the connector, its bends and its symbols can all be drawn. -/
namespace EntityDiagram

namespace Scalar

theorem abs_exact (q : Rat) : Scalar.abs q = |q| := by
  change (if q < 0 then -q else q) = |q|
  split_ifs with h
  · exact (abs_of_neg h).symm
  · exact (abs_of_nonneg (not_lt.mp h)).symm

theorem quotient_exact {a b : Rat} (h : b ≠ 0) : quotient a b = .ok (a / b) :=
  quotient_eq_ok_iff.mpr ⟨⟨rfl, rfl⟩, beq_eq_false_iff_ne.mpr h, rfl⟩

end Scalar

theorem checkFinite_exact (subject : Option String) (numbers : List Rat) :
    checkFinite subject numbers = .ok () := by
  rw [checkFinite, if_pos]
  exact List.all_eq_true.mpr fun _ _ => rfl

theorem isHorizontal_exact {dx dy : Rat} : isHorizontal dx dy = true ↔ |dy| < |dx| := by
  rw [isHorizontal, decide_eq_true_iff, Scalar.abs_exact, Scalar.abs_exact]

section Direction

variable {dx dy : Rat}

theorem ne_zero_of_horizontal (h : |dy| < |dx|) : dx ≠ 0 := abs_pos.mp ((abs_nonneg dy).trans_lt h)

theorem ne_zero_of_not_horizontal (hd : ¬(dx = 0 ∧ dy = 0)) (h : ¬|dy| < |dx|) : dy ≠ 0 := by
  intro hzero
  rw [hzero, abs_zero, abs_pos, not_not] at h
  exact hd ⟨h, hzero⟩

end Direction

namespace Rect

theorem center_exact (r : Rect Rat) : r.center = ⟨r.x + r.width / 2, r.y + r.height / 2⟩ := rfl

/-- A point that does not go beyond the sides of a rectangle that a direction leads to. -/
structure Bounds (r : Rect Rat) (dx dy : Rat) (p : Point Rat) : Prop where
  right : 0 ≤ dx → p.x ≤ r.right
  left : dx ≤ 0 → r.x ≤ p.x
  bottom : 0 ≤ dy → p.y ≤ r.bottom
  top : dy ≤ 0 → r.y ≤ p.y

theorem edgePoint_of_horizontal (r : Rect Rat) {dx dy : Rat} (h : |dy| < |dx|) :
    r.edgePoint dx dy = .ok ⟨r.center.x + (if 0 < dx then r.width / 2 else -(r.width / 2)),
      min (max (r.center.y + r.height / 2 * (dy / |dx|)) r.y) r.bottom⟩ := by
  have hne : Scalar.abs dx ≠ 0 := by
    rw [Scalar.abs_exact]
    exact abs_ne_zero.mpr (ne_zero_of_horizontal h)
  unfold edgePoint
  simp only
  rw [if_pos (isHorizontal_exact.mpr h), quotientOf, Scalar.quotient_exact hne]
  simp only [Scalar.smaller_exact, Scalar.larger_exact, Scalar.abs_exact]
  rfl

theorem edgePoint_of_not_horizontal (r : Rect Rat) {dx dy : Rat} (h : ¬|dy| < |dx|)
    (hy : dy ≠ 0) : r.edgePoint dx dy =
      .ok ⟨min (max (r.center.x + r.width / 2 * (dx / |dy|)) r.x) r.right,
        r.center.y + (if 0 < dy then r.height / 2 else -(r.height / 2))⟩ := by
  have hne : Scalar.abs dy ≠ 0 := by
    rw [Scalar.abs_exact]
    exact abs_ne_zero.mpr hy
  unfold edgePoint
  simp only
  rw [if_neg (mt isHorizontal_exact.mp h), quotientOf, Scalar.quotient_exact hne]
  simp only [Scalar.smaller_exact, Scalar.larger_exact, Scalar.abs_exact]
  rfl

/-- Keeping a coordinate within two borders. -/
theorem min_max_mem {low high : Rat} (h : low ≤ high) (a : Rat) :
    low ≤ min (max a low) high ∧ min (max a low) high ≤ high :=
  ⟨le_min (le_max_right _ _) h, min_le_right _ _⟩

/-- Half of a side from the center, and one unit back, in the direction of a difference. -/
theorem inset_side (low size : Rat) {delta : Rat} (hdelta : delta ≠ 0) :
    (0 ≤ delta → low + size / 2 + (if 0 < delta then size / 2 else -(size / 2)) +
      (if 0 < delta then -1 else 1) ≤ low + size) ∧
    (delta ≤ 0 → low ≤ low + size / 2 + (if 0 < delta then size / 2 else -(size / 2)) +
      (if 0 < delta then -1 else 1)) := by
  constructor
  · intro h
    rw [if_pos (lt_of_le_of_ne h hdelta.symm), if_pos (lt_of_le_of_ne h hdelta.symm)]
    linarith
  · intro h
    rw [if_neg (not_lt.mpr h), if_neg (not_lt.mpr h)]
    linarith

/-- An end of a connector can be computed, and stays within the side that it leaves through. -/
theorem exists_edgePoint_eq_ok {r : Rect Rat} (hwidth : 0 ≤ r.width) (hheight : 0 ≤ r.height)
    {dx dy : Rat} (h : ¬(dx = 0 ∧ dy = 0)) :
    ∃ p, r.edgePoint dx dy = .ok p ∧ r.Bounds dx dy (inset dx dy p) := by
  have hright : r.x ≤ r.right := le_add_of_nonneg_right hwidth
  have hbottom : r.y ≤ r.bottom := le_add_of_nonneg_right hheight
  by_cases hhorizontal : |dy| < |dx|
  · refine ⟨_, r.edgePoint_of_horizontal hhorizontal, ?_⟩
    rw [inset, if_pos (isHorizontal_exact.mpr hhorizontal)]
    obtain ⟨hmost, hleast⟩ := inset_side r.x r.width (ne_zero_of_horizontal hhorizontal)
    obtain ⟨htop, hend⟩ := min_max_mem hbottom (r.center.y + r.height / 2 * (dy / |dx|))
    exact ⟨hmost, hleast, fun _ => hend, fun _ => htop⟩
  · have hdy := ne_zero_of_not_horizontal h hhorizontal
    refine ⟨_, r.edgePoint_of_not_horizontal hhorizontal hdy, ?_⟩
    rw [inset, if_neg (mt isHorizontal_exact.mp hhorizontal)]
    obtain ⟨hmost, hleast⟩ := inset_side r.y r.height hdy
    obtain ⟨hleft, hend⟩ := min_max_mem hright (r.center.x + r.width / 2 * (dx / |dy|))
    exact ⟨fun _ => hend, fun _ => hleft, hmost, hleast⟩

/-- The difference of two centers. -/
def towards (source target : Rect Rat) : Point Rat :=
  ⟨target.center.x - source.center.x, target.center.y - source.center.y⟩

/-- Between different centers an end of a connector is a point of an edge, moved inward. -/
theorem connectionPoint_exact {source target : Rect Rat}
    (h : ¬((source.towards target).x = 0 ∧ (source.towards target).y = 0))
    (subject : Option String) : connectionPoint source target subject =
      (source.edgePoint (source.towards target).x (source.towards target).y).map
        (inset (source.towards target).x (source.towards target).y) := by
  have hdirection : ((source.towards target).x == 0 && (source.towards target).y == 0) = false := by
    simpa using h
  unfold connectionPoint
  rw [checkFinite_exact, checkFinite_exact]
  change (if ((source.towards target).x == 0 && (source.towards target).y == 0) = true then _
    else source.edgePoint (source.towards target).x (source.towards target).y >>= _) = _
  rw [hdirection]
  cases source.edgePoint (source.towards target).x (source.towards target).y <;> rfl

theorem exists_connectionPoint_eq_ok {source target : Rect Rat} (hwidth : 0 ≤ source.width)
    (hheight : 0 ≤ source.height)
    (h : ¬((source.towards target).x = 0 ∧ (source.towards target).y = 0))
    (subject : Option String) : ∃ p, connectionPoint source target subject = .ok p ∧
      source.Bounds (source.towards target).x (source.towards target).y p := by
  obtain ⟨edge, hedge, hbounds⟩ := exists_edgePoint_eq_ok hwidth hheight h
  refine ⟨_, ?_, hbounds⟩
  rw [connectionPoint_exact h, hedge]
  rfl

/-- Between a rectangle and itself there is no direction. -/
theorem connectionPoint_self (r : Rect Rat) (subject : Option String) :
    connectionPoint r r subject =
      .error (.geometry .sharedCenter subject [r.center.x, r.center.y]) := by
  unfold connectionPoint
  rw [checkFinite_exact]
  change (if (r.center.x - r.center.x == 0 && r.center.y - r.center.y == 0) = true then _
    else _) = _
  rw [sub_self, sub_self]
  rfl

variable {gap : Rat} {r s : Rect Rat} (hgap : 0 < gap) (hr : 0 ≤ r.width ∧ 0 ≤ r.height)
  (hs : 0 ≤ s.width ∧ 0 ≤ s.height)

include hgap hr hs

/-- Where the first rectangle is left of the second, its center is, and the end of a connector. -/
theorem LeftOf.lt (h : LeftOf gap r s) : r.center.x < s.center.x ∧ ∀ p q,
    r.Bounds (r.towards s).x (r.towards s).y p → s.Bounds (s.towards r).x (s.towards r).y q →
      p.x < q.x := by
  rw [LeftOf, right_exact] at h
  have hcenter : r.center.x < s.center.x := by
    simp only [center_exact]
    linarith [hr.1, hs.1]
  refine ⟨hcenter, ?_⟩
  intro p q hp hq
  have hright := hp.right (sub_nonneg.mpr hcenter.le)
  have hleft := hq.left (sub_nonpos.mpr hcenter.le)
  rw [right_exact] at hright
  linarith

theorem Above.lt (h : Above gap r s) : r.center.y < s.center.y ∧ ∀ p q,
    r.Bounds (r.towards s).x (r.towards s).y p → s.Bounds (s.towards r).x (s.towards r).y q →
      p.y < q.y := by
  rw [Above, bottom_exact] at h
  have hcenter : r.center.y < s.center.y := by
    simp only [center_exact]
    linarith [hr.2, hs.2]
  refine ⟨hcenter, ?_⟩
  intro p q hp hq
  have hbottom := hp.bottom (sub_nonneg.mpr hcenter.le)
  have htop := hq.top (sub_nonpos.mpr hcenter.le)
  rw [bottom_exact] at hbottom
  linarith

/-- Rectangles that are apart have different centers, and a connector between them has different
ends. -/
theorem ApartBy.ne (h : ApartBy gap r s) :
    ¬((r.towards s).x = 0 ∧ (r.towards s).y = 0) ∧ ∀ p q,
      r.Bounds (r.towards s).x (r.towards s).y p → s.Bounds (s.towards r).x (s.towards r).y q →
        ¬(q.x - p.x = 0 ∧ q.y - p.y = 0) := by
  simp only [towards, sub_eq_zero]
  rcases h with (h | h) | h | h
  · obtain ⟨hcenter, hends⟩ := h.lt hgap hr hs
    exact ⟨fun hsame => hcenter.ne' hsame.1, fun p q hp hq hsame => (hends p q hp hq).ne' hsame.1⟩
  · obtain ⟨hcenter, hends⟩ := h.lt hgap hs hr
    exact ⟨fun hsame => hcenter.ne hsame.1, fun p q hp hq hsame => (hends q p hq hp).ne hsame.1⟩
  · obtain ⟨hcenter, hends⟩ := h.lt hgap hr hs
    exact ⟨fun hsame => hcenter.ne' hsame.2, fun p q hp hq hsame => (hends p q hp hq).ne' hsame.2⟩
  · obtain ⟨hcenter, hends⟩ := h.lt hgap hs hr
    exact ⟨fun hsame => hcenter.ne hsame.2, fun p q hp hq hsame => (hends q p hq hp).ne hsame.2⟩

end Rect

theorem route_exact (start finish : Point Rat) (subject : Option String) :
    route start finish subject = .ok (Route.between start finish) := by
  unfold route
  simp only [checkFinite_exact]
  rfl

theorem exists_relationshipSymbols_eq_ok {target source : Point Rat}
    (h : ¬(target.x - source.x = 0 ∧ target.y - source.y = 0)) (c : Cardinality)
    (identifying : Bool) (subject : Option String) :
    ∃ symbols, relationshipSymbols target source c identifying subject = .ok symbols := by
  unfold relationshipSymbols
  rw [if_neg (by simpa using h)]
  exact ⟨_, rfl⟩

/-- Between rectangles that are apart a connector has two ends, and symbols can stand there. -/
theorem Rect.ApartBy.exists_ends {gap : Rat} {r s : Rect Rat} (h : ApartBy gap r s)
    (hgap : 0 < gap) (hr : 0 ≤ r.width ∧ 0 ≤ r.height) (hs : 0 ≤ s.width ∧ 0 ≤ s.height)
    (subject : Option String) : ∃ start finish,
      connectionPoint r s subject = .ok start ∧ connectionPoint s r subject = .ok finish ∧
      ∀ c identifying, ∃ symbols,
        relationshipSymbols finish start c identifying subject = .ok symbols := by
  obtain ⟨hthere, hends⟩ := h.ne hgap hr hs
  obtain ⟨hback, -⟩ := h.symm.ne hgap hs hr
  obtain ⟨start, hstart, hstartside⟩ := exists_connectionPoint_eq_ok hr.1 hr.2 hthere subject
  obtain ⟨finish, hfinish, hfinishside⟩ := exists_connectionPoint_eq_ok hs.1 hs.2 hback subject
  have hne := hends start finish hstartside hfinishside
  refine ⟨start, finish, hstart, hfinish, ?_⟩
  intro c identifying
  exact exists_relationshipSymbols_eq_ok hne c identifying subject

end EntityDiagram
