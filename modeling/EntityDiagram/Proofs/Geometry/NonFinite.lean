import EntityDiagram.Proofs.Geometry.Sides
import EntityDiagram.Scalar.Extended

/-! Ends of connectors in exact arithmetic on numbers that need not be finite. Finite boxes have the
ends that they have among the rationals; all others are refused. -/
namespace EntityDiagram

def Point.extended (p : Point Rat) : Point Extended := ⟨.finite p.x, .finite p.y⟩

theorem Point.extended_inj {p q : Point Rat} : p.extended = q.extended ↔ p = q := by
  obtain ⟨px, py⟩ := p
  obtain ⟨qx, qy⟩ := q
  simp [extended]

def Rect.extended (r : Rect Rat) : Rect Extended :=
  ⟨.finite r.x, .finite r.y, .finite r.width, .finite r.height⟩

theorem checkFinite_of_isFinite {α : Type} [Scalar α] {numbers : List α}
    (h : ∀ a ∈ numbers, Scalar.isFinite a = true) (subject : Option String) :
    checkFinite subject numbers = .ok () := if_pos (List.all_eq_true.mpr h)

/-- Extended numbers that are not all finite are refused; none of them is too large. -/
theorem checkFinite_extended {numbers : List Extended}
    (h : ¬∀ a ∈ numbers, Scalar.isFinite a = true) (subject : Option String) :
    checkFinite subject numbers = .error (.geometry .nonFinite subject numbers) := by
  have hfits : numbers.all Scalar.fits = true := List.all_eq_true.mpr fun a _ => Extended.fits_eq a
  unfold checkFinite
  rw [if_neg (mt List.all_eq_true.mp h), if_pos hfits]

theorem exists_connectionPoint_eq_nonFinite {source target : Rect Extended}
    (h : ¬source.IsFinite ∨ ¬target.IsFinite) (subject : Option String) :
    ∃ numbers, connectionPoint source target subject =
      .error (.geometry .nonFinite subject numbers) := by
  unfold connectionPoint
  by_cases hsource : source.IsFinite
  · rw [checkFinite_of_isFinite hsource,
      checkFinite_extended (h.resolve_left (not_not.mpr hsource))]
    exact ⟨_, rfl⟩
  · rw [checkFinite_extended hsource]
    exact ⟨_, rfl⟩

namespace Rect

variable (r : Rect Rat)

theorem isFinite_extended : r.extended.IsFinite := by
  simp [IsFinite, numbers, extended]

theorem exists_eq_extended {r : Rect Extended} (h : r.IsFinite) :
    ∃ q : Rect Rat, q.extended = r := by
  obtain ⟨x, y, width, height⟩ := r
  simp only [IsFinite, numbers, List.forall_mem_cons] at h
  obtain ⟨hx, hy, hwidth, hheight, -⟩ := h
  obtain ⟨x, rfl⟩ := Extended.exists_eq_finite hx
  obtain ⟨y, rfl⟩ := Extended.exists_eq_finite hy
  obtain ⟨width, rfl⟩ := Extended.exists_eq_finite hwidth
  obtain ⟨height, rfl⟩ := Extended.exists_eq_finite hheight
  exact ⟨⟨x, y, width, height⟩, rfl⟩

theorem half_extended (a : Rat) : Extended.finite a / 2 = Extended.finite (a / 2) :=
  Extended.finite_div a two_ne_zero

theorem center_extended : r.extended.center = r.center.extended := by
  simp only [center, extended, half_extended, Extended.finite_add, Point.extended]

theorem isHorizontal_finite (dx dy : Rat) :
    isHorizontal (Extended.finite dx) (Extended.finite dy) = isHorizontal dx dy := by
  simp only [isHorizontal, Extended.abs_finite, Extended.finite_lt_iff]

theorem quotientOf_finite {a b q : Rat} (h : quotientOf a b = .ok q) :
    quotientOf (Extended.finite a) (Extended.finite b) = .ok (.finite q) := by
  unfold quotientOf Scalar.quotient at h ⊢
  by_cases hb : b = 0
  · rw [if_pos (beq_iff_eq.mpr hb)] at h
    contradiction
  · rw [if_neg (mt beq_iff_eq.mp hb)] at h
    have hzero : ¬(Extended.finite b == 0) = true := mt (Extended.finite_beq_iff b 0).mp hb
    rw [if_neg hzero, Extended.finite_div a hb]
    cases h
    rfl

theorem larger_finite (a b : Rat) :
    Scalar.larger (Extended.finite a) (Extended.finite b) = .finite (Scalar.larger a b) := by
  simp only [Scalar.larger, Extended.finite_lt_iff]
  split_ifs <;> rfl

theorem smaller_finite (a b : Rat) :
    Scalar.smaller (Extended.finite a) (Extended.finite b) = .finite (Scalar.smaller a b) := by
  simp only [Scalar.smaller, Extended.finite_lt_iff]
  split_ifs <;> rfl

theorem side_finite (d a b : Rat) :
    (if (0 : Extended) < .finite d then Extended.finite a else .finite b) =
      .finite (if 0 < d then a else b) := by
  have hpos : (0 : Extended) < .finite d ↔ 0 < d := Extended.finite_lt_iff 0 d
  simp only [hpos]
  split_ifs <;> rfl

theorem edgePoint_extended {dx dy : Rat} {e : Point Rat} (h : r.edgePoint dx dy = .ok e) :
    r.extended.edgePoint (.finite dx) (.finite dy) = .ok e.extended := by
  have hright : r.extended.right = .finite r.right := rfl
  have hbottom : r.extended.bottom = .finite r.bottom := rfl
  unfold edgePoint at h ⊢
  simp only [isHorizontal_finite, center_extended, Extended.abs_finite, hright, hbottom] at h ⊢
  by_cases hhorizontal : isHorizontal dx dy = true
  · rw [if_pos hhorizontal] at h ⊢
    obtain ⟨slope, hslope, rfl⟩ := map_eq_ok_iff.mp h
    rw [quotientOf_finite hslope]
    simp only [Except.map, extended, Point.extended, half_extended, Extended.finite_add,
      Extended.finite_mul, Extended.neg_finite, larger_finite, smaller_finite, side_finite]
  · rw [if_neg hhorizontal] at h ⊢
    obtain ⟨slope, hslope, rfl⟩ := map_eq_ok_iff.mp h
    rw [quotientOf_finite hslope]
    simp only [Except.map, extended, Point.extended, half_extended, Extended.finite_add,
      Extended.finite_mul, Extended.neg_finite, larger_finite, smaller_finite, side_finite]

theorem inset_extended (dx dy : Rat) (e : Point Rat) :
    inset (.finite dx) (.finite dy) e.extended = (inset dx dy e).extended := by
  have hinset (d : Rat) : (if (0 : Extended) < .finite d then -borderInset else borderInset) =
      Extended.finite (if 0 < d then -borderInset else borderInset) := side_finite d (-1) 1
  unfold inset
  simp only [isHorizontal_finite, hinset, Point.extended, Extended.finite_add]
  split_ifs <;> rfl

theorem center_extended_eq_iff {r s : Rect Rat} :
    r.extended.center = s.extended.center ↔ r.center = s.center := by
  rw [center_extended, center_extended, Point.extended_inj]

variable {source target : Rect Rat}

/-- What is checked before a direction is taken, for finite boxes. -/
theorem sharesCenter_extended :
    (target.extended.center.x - source.extended.center.x == 0 &&
      target.extended.center.y - source.extended.center.y == 0) = true ↔
      source.center = target.center := by
  rw [center_extended, center_extended, Bool.and_eq_true]
  simp only [Point.extended, Extended.finite_sub]
  rw [← towards_eq_zero_iff]
  exact and_congr (Extended.finite_beq_iff _ 0) (Extended.finite_beq_iff _ 0)

theorem connectionPoint_extended (h : source.center ≠ target.center) {subject : Option String}
    {p : Point Rat} (hp : connectionPoint source target subject = .ok p) :
    connectionPoint source.extended target.extended subject = .ok p.extended := by
  rw [connectionPoint_exact (mt towards_eq_zero_iff.mp h)] at hp
  obtain ⟨e, he, rfl⟩ := map_eq_ok_iff.mp hp
  have hedge : source.extended.edgePoint (.finite (target.center.x - source.center.x))
      (.finite (target.center.y - source.center.y)) = .ok e.extended :=
    source.edgePoint_extended he
  have hinset : inset (.finite (target.center.x - source.center.x))
      (.finite (target.center.y - source.center.y)) e.extended =
        (inset (source.towards target).x (source.towards target).y e).extended :=
    inset_extended _ _ e
  unfold connectionPoint
  rw [checkFinite_of_isFinite source.isFinite_extended,
    checkFinite_of_isFinite target.isFinite_extended, if_neg (mt sharesCenter_extended.mp h),
    center_extended, center_extended]
  simp only [Point.extended, Extended.finite_sub] at hedge hinset ⊢
  rw [hedge]
  change (checkFinite subject _ >>= fun _ => pure _) = _
  rw [hinset]
  rfl

theorem connectionPoint_extended_of_center_eq (h : source.center = target.center)
    (subject : Option String) : connectionPoint source.extended target.extended subject =
      .error (.geometry .sharedCenter subject
        [.finite source.center.x, .finite source.center.y]) := by
  unfold connectionPoint
  rw [checkFinite_of_isFinite source.isFinite_extended,
    checkFinite_of_isFinite target.isFinite_extended]
  change (if _ then _ else _) = _
  rw [if_pos (sharesCenter_extended.mpr h), center_extended]
  rfl

/-- Between these boxes there is no direction to connect them in. -/
def Unconnectable (source target : Rect Extended) : Prop :=
  ¬source.IsFinite ∨ ¬target.IsFinite ∨ source.center = target.center

/-- Either boxes cannot be connected, which is reported, or there is an end of a connector. -/
theorem connectionPoint_extended_cases (source target : Rect Extended) (subject : Option String) :
    (source.Unconnectable target ∧
      ∃ error, connectionPoint source target subject = .error (.part (.geometry error))) ∨
    (¬source.Unconnectable target ∧ ∃ p, connectionPoint source target subject = .ok p) := by
  by_cases hfinite : source.IsFinite ∧ target.IsFinite
  · obtain ⟨r, rfl⟩ := exists_eq_extended hfinite.1
    obtain ⟨s, rfl⟩ := exists_eq_extended hfinite.2
    by_cases hcenter : r.center = s.center
    · refine .inl ⟨.inr (.inr (center_extended_eq_iff.mpr hcenter)), ?_⟩
      exact ⟨_, connectionPoint_extended_of_center_eq hcenter subject⟩
    · obtain ⟨_, p, hp, -⟩ := exists_connectionPoint_exact hcenter subject
      refine .inr ⟨?_, p.extended, connectionPoint_extended hcenter hp⟩
      rintro (hsource | htarget | hsame)
      · exact hsource hfinite.1
      · exact htarget hfinite.2
      · exact hcenter (center_extended_eq_iff.mp hsame)
  · have hnone := not_and_or.mp hfinite
    obtain ⟨numbers, herror⟩ := exists_connectionPoint_eq_nonFinite hnone subject
    exact .inl ⟨hnone.imp_right .inl, _, herror⟩

end Rect

end EntityDiagram
