import EntityDiagram.Proofs.Geometry.NonFinite
import Mathlib.Data.Sign.Basic

/-! Where connectors leave their boxes. The end of a connector sits one unit inside the side that
faces the other box, shifted along it towards the other center; the other end sits inside the
opposite side of its own box. Only boxes without a direction between them, or with numbers that are
not finite, have no connector. -/
namespace EntityDiagram.Rect

/-- A point inside a rectangle or on its border. -/
def Encloses (r : Rect Rat) (p : Point Rat) : Prop :=
  (r.x ≤ p.x ∧ p.x ≤ r.right) ∧ r.y ≤ p.y ∧ p.y ≤ r.bottom

theorem encloses_of_inward {r : Rect Rat} {s : Side} {p : Point Rat} (hdepth : 1 ≤ r.depth s)
    (hacross : s.across p = r.border s + s.inward) (halong : s.along p ∈ r.span s) :
    r.Encloses p := by
  obtain ⟨hlow, hhigh⟩ := halong
  rw [Encloses, right_exact, bottom_exact]
  cases s
  all_goals
    simp only [Side.across, Side.along, Side.inward, border, low, length, depth, right_exact,
      bottom_exact] at hdepth hacross hlow hhigh
    constructor <;> constructor <;> linarith

/-- Where a box is left towards another one: one unit inside the side that faces the other box, next
to a point of that side which needs no keeping within it and lies where the other center does. -/
structure LeavesAt (source target : Rect Rat) (p : Point Rat) : Prop where
  encloses : source.Encloses p
  across_eq : (source.exitSide target).across p =
    source.border (source.exitSide target) + (source.exitSide target).inward
  along_mem : (source.exitSide target).along p ∈ source.span (source.exitSide target)
  sign_eq : SignType.sign
      ((source.exitSide target).along p - (source.exitSide target).along source.center) =
    SignType.sign
      ((source.exitSide target).along target.center - (source.exitSide target).along source.center)
  along_eq : (source.exitSide target).along p =
    source.interpolated (source.exitSide target) (source.towards target)
  clamp_eq : source.clamp (source.exitSide target)
      (source.interpolated (source.exitSide target) (source.towards target)) =
    source.interpolated (source.exitSide target) (source.towards target)

theorem sign_interpolated_sub {r : Rect Rat} {s : Side} {d : Point Rat} (h : s.Faces d)
    (hlength : 0 < r.length s) : SignType.sign (r.interpolated s d - s.along r.center) =
      SignType.sign (s.along d) := by
  have hscale : 0 < r.length s / 2 / |s.across d| := div_pos (half_pos hlength) h.abs_across_pos
  have hproduct : r.interpolated s d - s.along r.center =
      r.length s / 2 / |s.across d| * s.along d := by
    rw [interpolated, Side.slope]
    ring
  rw [hproduct, sign_mul, sign_pos hscale, one_mul]

variable {source target : Rect Rat}

/-- Boxes of at least one unit are left inside the facing side. -/
theorem exists_leavesAt (hwidth : 1 ≤ source.width) (hheight : 1 ≤ source.height)
    (h : source.center ≠ target.center) (subject : Option String) :
    ∃ p, connectionPoint source target subject = .ok p ∧ source.LeavesAt target p := by
  obtain ⟨e, p, hp, ⟨hacross, halong⟩, hborder, hclamp⟩ := exists_connectionPoint_exact h subject
  have hfaces := faces_exitSide h
  have hlength : 0 < source.length (source.exitSide target) := by
    cases source.exitSide target <;> exact lt_of_lt_of_le one_pos ‹_›
  have hdepth : 1 ≤ source.depth (source.exitSide target) := by
    cases source.exitSide target <;> assumption
  have hmem := source.interpolated_mem_span _ hfaces hlength.le
  rw [hborder] at hacross
  rw [hclamp, clamp_eq_self _ _ hmem] at halong
  refine ⟨p, hp, ⟨?_, hacross, ?_, ?_, halong, clamp_eq_self _ _ hmem⟩⟩
  · exact encloses_of_inward hdepth hacross (halong ▸ hmem)
  · exact halong ▸ hmem
  · rw [halong, sign_interpolated_sub hfaces hlength, along_towards]

/-- Whatever their sizes, boxes with a direction between them are left through opposite sides. -/
theorem exists_opposite (h : source.center ≠ target.center) (subject : Option String) :
    ∃ q, connectionPoint target source subject = .ok q ∧
      target.exitSide source = (source.exitSide target).opposite ∧
      (target.exitSide source).across q =
        target.border (target.exitSide source) + (target.exitSide source).inward := by
  obtain ⟨e, q, hq, ⟨hacross, -⟩, hborder, -⟩ := exists_connectionPoint_exact h.symm subject
  exact ⟨q, hq, exitSide_swap h, by rw [hacross, hborder]⟩

/-- In exact arithmetic. An end of a connector is refused exactly where a number is not finite or
the centers coincide, and never for a division. Otherwise, a box of at least one unit is left one
unit inside the side that faces the other box, on the side of its center where the other center is
and without being kept within that side, and the other box is left through its opposite side. -/
theorem connectionPoint_inside_facing_sides (subject : Option String) :
    (∀ source target : Rect Extended,
      ((∃ error, connectionPoint source target subject = .error (.part (.geometry error))) ↔
        source.Unconnectable target) ∧
      ((∃ p, connectionPoint source target subject = .ok p) ↔ ¬source.Unconnectable target) ∧
      ∀ fault, connectionPoint source target subject ≠ .error (.arithmetic fault)) ∧
    ∀ source target : Rect Rat, 1 ≤ source.width → 1 ≤ source.height →
      source.center ≠ target.center → ∃ p q : Point Rat,
        connectionPoint source.extended target.extended subject = .ok p.extended ∧
        connectionPoint target.extended source.extended subject = .ok q.extended ∧
        source.LeavesAt target p ∧
        target.exitSide source = (source.exitSide target).opposite ∧
        (target.exitSide source).across q =
          target.border (target.exitSide source) + (target.exitSide source).inward := by
  constructor
  · intro source target
    obtain ⟨hnone, error, herror⟩ | ⟨hsome, p, hp⟩ :=
      connectionPoint_extended_cases source target subject
    · simp [herror, hnone]
    · simp [hp, hsome]
  · intro source target hwidth hheight hcenter
    obtain ⟨p, hp, hleaves⟩ := exists_leavesAt hwidth hheight hcenter subject
    obtain ⟨q, hq, hopposite, hacross⟩ := exists_opposite hcenter subject
    exact ⟨p, q, connectionPoint_extended hcenter hp, connectionPoint_extended hcenter.symm hq,
      hleaves, hopposite, hacross⟩

/-- A low box and a higher one to its lower right. -/
theorem connectionPoint_inside_facing_sides_of_slanted :
    let source : Rect Rat := ⟨0, 0, 40, 20⟩
    let target : Rect Rat := ⟨100, 10, 60, 50⟩
    1 ≤ source.width ∧ 1 ≤ source.height ∧ source.center ≠ target.center ∧
    connectionPoint source.extended target.extended none =
      .ok (⟨39, 135 / 11⟩ : Point Rat).extended ∧
    source.LeavesAt target ⟨39, 135 / 11⟩ ∧ target.exitSide source = .left := by
  intro source target
  have hwidth : 1 ≤ source.width := by decide +kernel
  have hheight : 1 ≤ source.height := by decide +kernel
  have hcenter : source.center ≠ target.center := by decide +kernel
  have hvalue : connectionPoint source.extended target.extended none =
      .ok (⟨39, 135 / 11⟩ : Point Rat).extended := by decide +kernel
  obtain ⟨p, q, hp, hq, hleaves, hopposite, hacross⟩ :=
    (connectionPoint_inside_facing_sides none).2 source target hwidth hheight hcenter
  obtain rfl : (⟨39, 135 / 11⟩ : Point Rat) = p :=
    Point.extended_inj.mp (Except.ok.inj (hvalue.symm.trans hp))
  have hright : source.exitSide target = .right := by decide +kernel
  rw [hright] at hopposite
  exact ⟨hwidth, hheight, hcenter, hvalue, hleaves, hopposite⟩

end EntityDiagram.Rect
