import EntityDiagram.Canvas
import EntityDiagram.Proofs.Scalar.Greatest
import EntityDiagram.Proofs.Scalar.Sums

/-! The size of a canvas, as the program computes it. It is the padding beside the greatest extent
of the drawing, where extents that are undefined do not count. Two greatest extents are the same
exactly, even if one is whole and the other a double, but a padding that is whole is added exactly
to the one and rounded beside the other: then the order of the primitives decides. -/
namespace EntityDiagram

section Extents

variable {α : Type} [Scalar α]

/-- The points that a primitive extends to: the far corner of a box or of a square, all points of a
path, the place of a text, what lies a radius beyond the center of a circle, and both ends of a
line. -/
inductive Primitive.ExtendsTo : Primitive α → Point α → Prop
  | box {b : Box α} :
      ExtendsTo (.box b) ⟨b.rect.x + b.rect.width, b.rect.y + b.rect.height⟩
  | path {points : List (Point α)} {style : PathStyle} {p : Point α} (hp : p ∈ points) :
      ExtendsTo (.path points style) p
  | text {p : Point α} {content : String} {anchor : TextAnchor} {style : TextStyle} :
      ExtendsTo (.text p content anchor style) p
  | circle {center : Point α} {radius : α} {style : CircleStyle} :
      ExtendsTo (.circle center radius style) ⟨center.x + radius, center.y + radius⟩
  | lineStart {a b : Point α} : ExtendsTo (.underline a b) a
  | lineEnd {a b : Point α} : ExtendsTo (.underline a b) b
  | optionalMarker {corner : Point α} {side : α} :
      ExtendsTo (.optionalMarker corner side) ⟨corner.x + side, corner.y + side⟩

/-- The numbers that are added up for an extent of a primitive. -/
inductive Primitive.Adds : Primitive α → α → α → Prop
  | boxRight {b : Box α} : Adds (.box b) b.rect.x b.rect.width
  | boxBottom {b : Box α} : Adds (.box b) b.rect.y b.rect.height
  | circleRight {center : Point α} {radius : α} {style : CircleStyle} :
      Adds (.circle center radius style) center.x radius
  | circleBottom {center : Point α} {radius : α} {style : CircleStyle} :
      Adds (.circle center radius style) center.y radius
  | markerRight {corner : Point α} {side : α} : Adds (.optionalMarker corner side) corner.x side
  | markerBottom {corner : Point α} {side : α} : Adds (.optionalMarker corner side) corner.y side

/-- A primitive whose extents are known, since no sum of them is one of a number that is too
large. -/
def Primitive.IsExtended (primitive : Primitive α) : Prop :=
  ∀ a b, primitive.Adds a b → Scalar.combines a b = true

/-- How far primitives extend in one direction. -/
def extents (coordinate : Point α → α) (primitives : List (Primitive α)) : Set α :=
  {a | ∃ primitive ∈ primitives, ∃ p, primitive.ExtendsTo p ∧ coordinate p = a}

theorem extents_perm {primitives others : List (Primitive α)} (h : primitives.Perm others)
    (coordinate : Point α → α) : extents coordinate primitives = extents coordinate others := by
  ext a
  simp only [extents, Set.mem_ofPred_eq, h.mem_iff]

theorem oppositeCorner_eq (corner : Point α) (width height : α) :
    oppositeCorner corner width height =
      if Scalar.combines corner.x width && Scalar.combines corner.y height then
        .ok ⟨corner.x + width, corner.y + height⟩
      else .error .tooLarge := by
  unfold oppositeCorner Scalar.sum
  cases Scalar.combines corner.x width <;> cases Scalar.combines corner.y height <;> rfl

theorem oppositeCorner_of_combines {corner : Point α} {width height : α}
    (hx : Scalar.combines corner.x width = true) (hy : Scalar.combines corner.y height = true) :
    oppositeCorner corner width height = .ok ⟨corner.x + width, corner.y + height⟩ := by
  rw [oppositeCorner_eq, hx, hy]
  rfl

theorem oppositeCorner_of_not_combines {corner : Point α} {width height : α}
    (h : ¬(Scalar.combines corner.x width = true ∧ Scalar.combines corner.y height = true)) :
    oppositeCorner corner width height = .error .tooLarge := by
  rw [oppositeCorner_eq, if_neg (by rwa [Bool.and_eq_true])]

section Corner

variable {primitive : Primitive α} {corner : Point α} {width height : α}
  (hreach : primitive.reach = (oppositeCorner corner width height).map ([·]))
include hreach

/-- A primitive that extends to the corner opposite to another reaches it. -/
theorem exists_reach_eq_ok_of_corner (hx : Scalar.combines corner.x width = true)
    (hy : Scalar.combines corner.y height = true)
    (hto : ∀ p, primitive.ExtendsTo p ↔ p = ⟨corner.x + width, corner.y + height⟩) :
    ∃ points, primitive.reach = .ok points ∧ ∀ p, p ∈ points ↔ primitive.ExtendsTo p := by
  refine ⟨[⟨corner.x + width, corner.y + height⟩], ?_, fun p => ?_⟩
  · rw [hreach, oppositeCorner_of_combines hx hy]
    rfl
  · rw [List.mem_singleton, hto]

theorem reach_eq_error_of_corner (h : ¬primitive.IsExtended)
    (hadds : ∀ a b, primitive.Adds a b → a = corner.x ∧ b = width ∨ a = corner.y ∧ b = height) :
    primitive.reach = .error .tooLarge := by
  rw [hreach, oppositeCorner_of_not_combines]
  · rfl
  · rintro ⟨hx, hy⟩
    refine h fun a b hab => ?_
    rcases hadds a b hab with ⟨rfl, rfl⟩ | ⟨rfl, rfl⟩
    · exact hx
    · exact hy

end Corner

/-- A primitive reaches the points that it extends to. -/
theorem exists_reach_eq_ok {primitive : Primitive α} (h : primitive.IsExtended) :
    ∃ points, primitive.reach = .ok points ∧ ∀ p, p ∈ points ↔ primitive.ExtendsTo p := by
  cases primitive with
  | box b =>
    exact exists_reach_eq_ok_of_corner rfl (h _ _ .boxRight) (h _ _ .boxBottom)
      fun p => ⟨fun hp => by cases hp; rfl, fun hp => hp ▸ .box⟩
  | circle center radius style =>
    exact exists_reach_eq_ok_of_corner rfl (h _ _ .circleRight) (h _ _ .circleBottom)
      fun p => ⟨fun hp => by cases hp; rfl, fun hp => hp ▸ .circle⟩
  | optionalMarker corner side =>
    exact exists_reach_eq_ok_of_corner rfl (h _ _ .markerRight) (h _ _ .markerBottom)
      fun p => ⟨fun hp => by cases hp; rfl, fun hp => hp ▸ .optionalMarker⟩
  | path points style =>
    exact ⟨points, rfl, fun p => ⟨.path, fun hp => by cases hp; assumption⟩⟩
  | text point content anchor style =>
    refine ⟨[point], rfl, fun p => ?_⟩
    rw [List.mem_singleton]
    exact ⟨fun hp => hp ▸ .text, fun hp => by cases hp; rfl⟩
  | underline a b =>
    refine ⟨[a, b], rfl, fun p => ?_⟩
    rw [List.mem_pair]
    constructor
    · rintro (rfl | rfl)
      · exact .lineStart
      · exact .lineEnd
    · intro hp
      cases hp
      · exact .inl rfl
      · exact .inr rfl

theorem reach_eq_error {primitive : Primitive α} (h : ¬primitive.IsExtended) :
    primitive.reach = .error .tooLarge := by
  cases primitive with
  | box b | circle center radius style | optionalMarker corner side =>
    refine reach_eq_error_of_corner rfl h ?_
    rintro _ _ (_ | _)
    · exact .inl ⟨rfl, rfl⟩
    · exact .inr ⟨rfl, rfl⟩
  | path points style | text point content anchor style | underline a b =>
    exact absurd (fun a b hadds => by cases hadds) h

variable {primitives : List (Primitive α)}

theorem exists_mapM_reach_eq_ok (h : ∀ primitive ∈ primitives, primitive.IsExtended) :
    ∃ groups, primitives.mapM Primitive.reach = .ok groups ∧
      ∀ p, p ∈ groups.flatten ↔ ∃ primitive ∈ primitives, primitive.ExtendsTo p := by
  induction primitives with
  | nil => exact ⟨[], rfl, by simp⟩
  | cons primitive rest ih =>
    obtain ⟨hfirst, hrest⟩ := List.forall_mem_cons.mp h
    obtain ⟨points, hpoints, hmem⟩ := exists_reach_eq_ok hfirst
    obtain ⟨groups, hgroups, hgroupsmem⟩ := ih hrest
    refine ⟨points :: groups, ?_, fun p => ?_⟩
    · rw [List.mapM_cons, hpoints, hgroups]
      rfl
    · rw [List.flatten_cons, List.mem_append, hmem, hgroupsmem, List.exists_mem_cons_iff]

theorem mapM_reach_eq_error (h : ¬∀ primitive ∈ primitives, primitive.IsExtended) :
    primitives.mapM Primitive.reach = .error .tooLarge := by
  induction primitives with
  | nil => exact absurd (by simp) h
  | cons primitive rest ih =>
    rw [List.mapM_cons]
    by_cases hfirst : primitive.IsExtended
    · obtain ⟨points, hpoints, -⟩ := exists_reach_eq_ok hfirst
      rw [hpoints, ih fun hrest => h (List.forall_mem_cons.mpr ⟨hfirst, hrest⟩)]
      rfl
    · rw [reach_eq_error hfirst]
      rfl

/-- What is known of the extents is all that a size depends on. -/
theorem exists_canvasSize_eq (h : ∀ primitive ∈ primitives, primitive.IsExtended) :
    ∃ points : List (Point α), (∀ coordinate : Point α → α,
        {a | a ∈ points.map coordinate} = extents coordinate primitives) ∧
      ∀ padding, canvasSize primitives padding = do
        let width ← Scalar.sum (greatest (points.map (·.x))) padding
        let height ← Scalar.sum (greatest (points.map (·.y))) padding
        return ⟨width, height⟩ := by
  obtain ⟨groups, hgroups, hmem⟩ := exists_mapM_reach_eq_ok h
  refine ⟨groups.flatten, fun coordinate => ?_, fun padding => ?_⟩
  · ext a
    simp only [extents, Set.mem_ofPred_eq, List.mem_map, hmem]
    constructor
    · rintro ⟨p, ⟨primitive, hprimitive, hp⟩, ha⟩
      exact ⟨primitive, hprimitive, p, hp, ha⟩
    · rintro ⟨primitive, hprimitive, p, hp, ha⟩
      exact ⟨p, ⟨primitive, hprimitive, hp⟩, ha⟩
  · rw [canvasSize, hgroups]
    rfl

theorem canvasSize_eq_error (h : ¬∀ primitive ∈ primitives, primitive.IsExtended) (padding : α) :
    canvasSize primitives padding = .error .tooLarge := by
  rw [canvasSize, mapM_reach_eq_error h]
  rfl

end Extents

section Numbers

variable {primitives others : List (Primitive Number)}

theorem isGreatest_greatest (numbers : List Number) :
    Number.IsGreatest (Scalar.approx 0) {a | a ∈ numbers} (greatest numbers) :=
  Number.isGreatest_foldl (Number.atMost_iff.mp Number.atMost_zero_start).2.1 numbers

/-- The greatest extents of a drawing that have a sum with the padding make its size. -/
theorem exists_isGreatest_extents (h : ∀ primitive ∈ primitives, primitive.IsExtended) :
    ∃ right bottom, Number.IsGreatest (Scalar.approx 0) (extents (·.x) primitives) right ∧
      Number.IsGreatest (Scalar.approx 0) (extents (·.y) primitives) bottom ∧
      ∀ padding, canvasSize primitives padding = do
        let width ← Scalar.sum right padding
        let height ← Scalar.sum bottom padding
        return ⟨width, height⟩ := by
  obtain ⟨points, hextents, hsize⟩ := exists_canvasSize_eq h
  refine ⟨_, _, ?_, ?_, hsize⟩
  · rw [← hextents]
    exact isGreatest_greatest _
  · rw [← hextents]
    exact isGreatest_greatest _

/-- Extents to one side of which no whole one is the same as a double. -/
def ExtentsTieInKind (primitives : List (Primitive Number)) : Prop :=
  Number.TieInKind (extents (·.x) primitives) ∧ Number.TieInKind (extents (·.y) primitives)

variable (h : primitives.Perm others)
include h

/-- The greatest extents in two orders. -/
theorem exists_isGreatest_of_perm (hextended : ∀ primitive ∈ primitives, primitive.IsExtended) :
    ∃ right bottom right' bottom' : Number,
      right.exactReading = right'.exactReading ∧ bottom.exactReading = bottom'.exactReading ∧
      (ExtentsTieInKind primitives →
        right.isWhole = right'.isWhole ∧ bottom.isWhole = bottom'.isWhole) ∧
      (∀ padding, canvasSize primitives padding = do
        let width ← Scalar.sum right padding
        let height ← Scalar.sum bottom padding
        return ⟨width, height⟩) ∧
      ∀ padding, canvasSize others padding = do
        let width ← Scalar.sum right' padding
        let height ← Scalar.sum bottom' padding
        return ⟨width, height⟩ := by
  obtain ⟨right, bottom, hright, hbottom, hsize⟩ := exists_isGreatest_extents hextended
  obtain ⟨right', bottom', hright', hbottom', hsize'⟩ := exists_isGreatest_extents
    fun primitive hprimitive => hextended primitive (h.mem_iff.mpr hprimitive)
  rw [← extents_perm h] at hright' hbottom'
  exact ⟨right, bottom, right', bottom', hright.exactReading_eq hright',
    hbottom.exactReading_eq hbottom',
    fun hties => ⟨hright.isWhole_eq hright' hties.1, hbottom.isWhole_eq hbottom' hties.2⟩,
    hsize, hsize'⟩

/-- The order of the primitives does not matter beside a double, and not for extents without a tie
between a whole number and a double. -/
theorem canvasSize_perm {padding : Number}
    (hpadding : (∃ x, padding = .double x) ∨ ExtentsTieInKind primitives) :
    canvasSize primitives padding = canvasSize others padding := by
  by_cases hextended : ∀ primitive ∈ primitives, primitive.IsExtended
  · obtain ⟨right, bottom, right', bottom', hright, hbottom, hkind, hsize, hsize'⟩ :=
      exists_isGreatest_of_perm h hextended
    rw [hsize, hsize']
    rcases hpadding with ⟨x, rfl⟩ | hties
    · rw [Number.sum_double_congr hright, Number.sum_double_congr hbottom]
    · obtain ⟨hrightkind, hbottomkind⟩ := hkind hties
      rw [Number.sum_congr hright hrightkind, Number.sum_congr hbottom hbottomkind]
  · rw [canvasSize_eq_error hextended, canvasSize_eq_error]
    simpa only [h.mem_iff] using hextended

/-- A size as it is measured, in the double next to each number. -/
def Size.reading {α : Type} [Scalar α] (size : Size α) : Size Reading :=
  ⟨Scalar.reading size.width, Scalar.reading size.height⟩

/-- Beside a whole number that a double holds, the order may decide whether the size is whole, but
not what it measures. -/
theorem reading_canvasSize_perm {n : Int} (hn : Double.IsWhole n.natAbs) :
    (canvasSize primitives (.whole n)).map Size.reading =
      (canvasSize others (.whole n)).map Size.reading := by
  by_cases hextended : ∀ primitive ∈ primitives, primitive.IsExtended
  · obtain ⟨right, bottom, right', bottom', hright, hbottom, -, hsize, hsize'⟩ :=
      exists_isGreatest_of_perm h hextended
    have hfits := Number.fits_of_isWhole hn
    rw [hsize, hsize', Number.sum_whole hfits, Number.sum_whole hfits, Number.sum_whole hfits,
      Number.sum_whole hfits]
    have hwidth := Number.reading_add_whole_congr hright hn
    have hheight := Number.reading_add_whole_congr hbottom hn
    exact congrArg₂ (fun width height => Except.ok (Size.mk width height)) hwidth hheight
  · rw [canvasSize_eq_error hextended, canvasSize_eq_error]
    simpa only [h.mem_iff] using hextended

end Numbers

end EntityDiagram
