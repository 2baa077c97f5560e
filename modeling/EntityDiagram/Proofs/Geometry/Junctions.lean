import EntityDiagram.Proofs.Drawing.Directions
import EntityDiagram.Proofs.Geometry.Lines
import Mathlib.Order.Interval.Set.UnorderedInterval

/-! Junctions and their connectors, in exact numbers. All that is drawn for them stands on whole
coordinates, and rounding never takes the turn of a connector beyond one of its ends. -/
namespace EntityDiagram

def IsWhole (q : Rat) : Prop := ∃ n : Int, q = n

namespace IsWhole

variable {a b : Rat}

theorem add (ha : IsWhole a) (hb : IsWhole b) : IsWhole (a + b) := by
  obtain ⟨m, rfl⟩ := ha
  obtain ⟨n, rfl⟩ := hb
  exact ⟨m + n, (Int.cast_add m n).symm⟩

theorem sub (ha : IsWhole a) (hb : IsWhole b) : IsWhole (a - b) := by
  obtain ⟨m, rfl⟩ := ha
  obtain ⟨n, rfl⟩ := hb
  exact ⟨m - n, (Int.cast_sub m n).symm⟩

theorem le_of_lt_add_one (ha : IsWhole a) (hb : IsWhole b) (h : a < b + 1) : a ≤ b := by
  obtain ⟨m, rfl⟩ := ha
  obtain ⟨n, rfl⟩ := hb
  have hlt : m < n + 1 := by exact_mod_cast h
  exact_mod_cast Int.lt_add_one_iff.mp hlt

end IsWhole

/-- The nearest whole number, a half going up. -/
structure RoundsHalfUp (q x : Rat) : Prop where
  isWhole : IsWhole x
  le : x - 1 / 2 ≤ q
  lt : q < x + 1 / 2

namespace RoundsHalfUp

variable {a b q x : Rat} (h : RoundsHalfUp q x)
include h

theorem abs_sub_le : |x - q| ≤ 1 / 2 := by
  have hle := h.le
  have hlt := h.lt
  exact abs_le.mpr ⟨by linarith, by linarith⟩

/-- Rounding does not go beyond a whole number. -/
theorem le_of_le (ha : IsWhole a) (hq : a ≤ q) : a ≤ x :=
  ha.le_of_lt_add_one h.isWhole (by linarith [h.lt])

theorem ge_of_ge (hb : IsWhole b) (hq : q ≤ b) : x ≤ b :=
  h.isWhole.le_of_lt_add_one hb (by linarith [h.le])

theorem mem_uIcc (ha : IsWhole a) (hb : IsWhole b) (hq : q ∈ Set.uIcc a b) :
    x ∈ Set.uIcc a b := by
  rcases le_total a b with hab | hab
  · rw [Set.uIcc_of_le hab] at hq ⊢
    exact ⟨h.le_of_le ha hq.1, h.ge_of_ge hb hq.2⟩
  · rw [Set.uIcc_of_ge hab] at hq ⊢
    exact ⟨h.le_of_le hb hq.1, h.ge_of_ge ha hq.2⟩

end RoundsHalfUp

theorem exists_roundedHalfUp_exact (q : Rat) : ∃ x, roundedHalfUp q = .ok x ∧ RoundsHalfUp q x := by
  have hle := Rat.floor_le (q + 1 / 2)
  have hlt := Rat.lt_floor_add_one (q + 1 / 2)
  rw [Rat.intCast_add, Rat.intCast_one] at hlt
  exact ⟨((q + 1 / 2).floor : Rat), rfl, ⟨_, rfl⟩, by linarith, by linarith⟩

/-- All numbers of a primitive. -/
def Primitive.numbers {α : Type} : Primitive α → List α
  | .box b => [b.rect.x, b.rect.y, b.rect.width, b.rect.height]
  | .path points _ => points.flatMap fun p => [p.x, p.y]
  | .text p _ _ _ => [p.x, p.y]
  | .circle center radius _ => [center.x, center.y, radius]
  | .underline a b => [a.x, a.y, b.x, b.y]
  | .optionalMarker corner side => [corner.x, corner.y, side]

/-- A primitive on whole coordinates. -/
def Primitive.IsWhole (p : Primitive Rat) : Prop := ∀ a ∈ p.numbers, EntityDiagram.IsWhole a

namespace Hub

/-- A hub around whole coordinates. -/
structure IsWhole (hub : Hub Rat) : Prop where
  center_x : EntityDiagram.IsWhole hub.center.x
  center_y : EntityDiagram.IsWhole hub.center.y

/-- A hub under the middle of a box, at a fixed distance from its rounded bottom. -/
structure StandsBelow (hub : Hub Rat) (generic : Rect Rat) : Prop where
  center : RoundsHalfUp generic.center.x hub.center.x
  bottom : RoundsHalfUp generic.bottom (hub.center.y - 18)

theorem exists_below_exact (generic : Rect Rat) (complete : Bool)
    (discriminator subject : Option String) : ∃ hub,
      below generic complete discriminator subject = .ok hub ∧ hub.StandsBelow generic := by
  obtain ⟨x, hx, hroundx⟩ := exists_roundedHalfUp_exact (generic.x + generic.width / 2)
  obtain ⟨bottom, hbottom, hroundbottom⟩ := exists_roundedHalfUp_exact generic.bottom
  refine ⟨⟨⟨x, bottom + 18⟩, complete, discriminator⟩, ?_, hroundx, ?_⟩
  · rw [below, checkFinite_exact, hx, hbottom]
    rfl
  · rwa [add_sub_cancel_right]

/-- A junction is drawn as its generalization says. -/
theorem below_eq_ok {α : Type} [Scalar α] {generic : Rect α} {complete : Bool}
    {discriminator subject : Option String} {hub : Hub α}
    (h : below generic complete discriminator subject = .ok hub) :
    hub.complete = complete ∧ hub.discriminator = discriminator := by
  obtain ⟨⟨⟩, -, h⟩ := bind_eq_ok_iff.mp h
  obtain ⟨x, -, h⟩ := bind_eq_ok_iff.mp h
  obtain ⟨bottom, -, h⟩ := bind_eq_ok_iff.mp h
  obtain rfl := Except.ok.inj h
  exact ⟨rfl, rfl⟩

theorem StandsBelow.isWhole {hub : Hub Rat} {generic : Rect Rat} (h : hub.StandsBelow generic) :
    hub.IsWhole := by
  refine ⟨h.center.isWhole, ?_⟩
  rw [← sub_add_cancel hub.center.y 18]
  exact h.bottom.isWhole.add ⟨18, rfl⟩

namespace IsWhole

variable {hub : Hub Rat} (h : hub.IsWhole)
include h

theorem underlineY : EntityDiagram.IsWhole hub.underlineY :=
  (h.center_y.add ⟨8, rfl⟩).add ⟨8, rfl⟩

theorem of_mem_underlineYs {y : Rat} (hy : y ∈ hub.underlineYs) : EntityDiagram.IsWhole y := by
  rw [underlineYs, List.mem_cons, List.mem_ite_nil_right, List.mem_singleton] at hy
  rcases hy with rfl | ⟨-, rfl⟩
  · exact h.underlineY
  · exact h.underlineY.add ⟨6, rfl⟩

theorem circle : hub.circle.IsWhole := by
  rintro a (_ | ⟨_, _ | ⟨_, _ | ⟨_, ⟨⟩⟩⟩⟩)
  · exact h.center_x
  · exact h.center_y
  · exact ⟨8, rfl⟩

theorem of_mem_primitives {primitive : Primitive Rat} (hprimitive : primitive ∈ hub.primitives) :
    primitive.IsWhole := by
  rw [Hub.primitives, List.cons_append, List.mem_cons, List.mem_append] at hprimitive
  rcases hprimitive with rfl | hprimitive | hprimitive
  · exact h.circle
  · obtain ⟨y, hy, rfl⟩ := List.mem_map.mp hprimitive
    have hwhole := h.of_mem_underlineYs hy
    rintro a (_ | ⟨_, _ | ⟨_, _ | ⟨_, _ | ⟨_, ⟨⟩⟩⟩⟩⟩)
    · exact h.center_x.sub ⟨20, rfl⟩
    · exact hwhole
    · exact h.center_x.add ⟨20, rfl⟩
    · exact hwhole
  · obtain ⟨content, -, rfl⟩ := Option.map_eq_some_iff.mp (Option.mem_toList.mp hprimitive)
    rintro a (_ | ⟨_, _ | ⟨_, ⟨⟩⟩⟩)
    · exact (h.center_x.add ⟨8, rfl⟩).add ⟨12, rfl⟩
    · exact h.center_y.add ⟨4, rfl⟩

end IsWhole

end Hub

/-- Down from an anchor to some level, along it, and down or up to the top of a category. -/
structure LeadsTo (anchor : Point Rat) (category : Rect Rat) (points : List (Point Rat))
    (level x y : Rat) : Prop where
  points_eq : points = [anchor, ⟨anchor.x, level⟩, ⟨x, level⟩, ⟨x, y⟩]
  center : RoundsHalfUp category.center.x x
  top : RoundsHalfUp category.y y
  halfway : RoundsHalfUp ((anchor.y + y) / 2) level

namespace LeadsTo

theorem exists_categoryPoints_exact (anchor : Point Rat) (category : Rect Rat)
    (subject : Option String) : ∃ points level x y,
      categoryPoints anchor category subject = .ok points ∧
        LeadsTo anchor category points level x y := by
  obtain ⟨x, hx, hroundx⟩ := exists_roundedHalfUp_exact (category.x + category.width / 2)
  obtain ⟨y, hy, hroundy⟩ := exists_roundedHalfUp_exact category.y
  obtain ⟨level, hlevel, hroundlevel⟩ :=
    exists_roundedHalfUp_exact (anchor.y + (y - anchor.y) / 2)
  have hhalf : anchor.y + (y - anchor.y) / 2 = (anchor.y + y) / 2 := by ring
  refine ⟨_, level, x, y, ?_, rfl, hroundx, hroundy, hhalf ▸ hroundlevel⟩
  rw [categoryPoints, checkFinite_exact, hx, hy]
  change (do
    let level ← roundedHalfUp (anchor.y + (y - anchor.y) / 2)
    pure [anchor, ⟨anchor.x, level⟩, ⟨x, level⟩, ⟨x, y⟩]) = _
  rw [hlevel]
  rfl

variable {anchor : Point Rat} {category : Rect Rat} {points : List (Point Rat)}
variable {level x y : Rat} (h : LeadsTo anchor category points level x y)
include h

theorem isWhole (hx : IsWhole anchor.x) (hy : IsWhole anchor.y) :
    (Primitive.path points .generalization).IsWhole := by
  intro a ha
  rw [Primitive.numbers, h.points_eq, List.mem_flatMap] at ha
  obtain ⟨p, hp, ha⟩ := ha
  have hwhole : IsWhole p.x ∧ IsWhole p.y := by
    simp only [List.mem_cons, List.not_mem_nil, or_false] at hp
    rcases hp with rfl | rfl | rfl | rfl
    · exact ⟨hx, hy⟩
    · exact ⟨hx, h.halfway.isWhole⟩
    · exact ⟨h.center.isWhole, h.halfway.isWhole⟩
    · exact ⟨h.center.isWhole, h.top.isWhole⟩
  rcases List.mem_pair.mp ha with rfl | rfl
  · exact hwhole.1
  · exact hwhole.2

/-- Half-way is between two whole heights, and so is the level. -/
theorem level_mem_uIcc (hy : IsWhole anchor.y) : level ∈ Set.uIcc anchor.y y := by
  refine h.halfway.mem_uIcc hy h.top.isWhole ?_
  rcases le_total anchor.y y with hle | hle
  · rw [Set.uIcc_of_le hle]
    exact ⟨by linarith, by linarith⟩
  · rw [Set.uIcc_of_ge hle]
    exact ⟨by linarith, by linarith⟩

end LeadsTo

/-- A hub and a connector to any category stand on whole coordinates. The connector starts in the
middle of the first line of the hub and ends at the rounded top center of the category. Wherever
the category is, the level of the connector does not lie beyond its ends, and it is half-way but
for the rounding. -/
theorem connector_on_whole_coordinates (generic category : Rect Rat) (complete : Bool)
    (discriminator subject categorySubject : Option String) : ∃ hub left right points level x y,
      Hub.below generic complete discriminator subject = .ok hub ∧ hub.StandsBelow generic ∧
      categoryConnector hub.anchor category categorySubject =
        .ok (.path points .generalization) ∧
      (∀ primitive ∈ hub.primitives ++ [.path points .generalization], primitive.IsWhole) ∧
      (IsWhole hub.anchor.x ∧ IsWhole hub.anchor.y) ∧
      hub.underlines.head? = some (.underline left right) ∧ hub.anchor = left.middle right ∧
      points = [hub.anchor, ⟨hub.anchor.x, level⟩, ⟨x, level⟩, ⟨x, y⟩] ∧
      RoundsHalfUp category.center.x x ∧ RoundsHalfUp category.y y ∧
      level ∈ Set.uIcc hub.anchor.y y ∧ |level - (hub.anchor.y + y) / 2| ≤ 1 / 2 := by
  obtain ⟨hub, hhub, hbelow⟩ := Hub.exists_below_exact generic complete discriminator subject
  have hwhole := hbelow.isWhole
  obtain ⟨points, level, x, y, hpoints, hleads⟩ :=
    LeadsTo.exists_categoryPoints_exact hub.anchor category categorySubject
  have hanchor : hub.anchor =
      Point.middle ⟨hub.center.x - 20, hub.underlineY⟩ ⟨hub.center.x + 20, hub.underlineY⟩ := by
    rw [Hub.anchor, Point.middle, Point.mk.injEq]
    constructor <;> ring
  refine ⟨hub, _, _, points, level, x, y, hhub, hbelow, ?_, ?_,
    ⟨hwhole.center_x, hwhole.underlineY⟩, rfl, hanchor, hleads.points_eq, hleads.center, hleads.top,
    hleads.level_mem_uIcc hwhole.underlineY, hleads.halfway.abs_sub_le⟩
  · rw [categoryConnector, hpoints]
    rfl
  · intro primitive hprimitive
    rcases List.mem_append.mp hprimitive with hmem | hmem
    · exact hwhole.of_mem_primitives hmem
    · obtain rfl := List.mem_singleton.mp hmem
      exact hleads.isWhole hwhole.center_x hwhole.underlineY

end EntityDiagram
