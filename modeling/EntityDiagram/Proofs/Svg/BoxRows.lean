import EntityDiagram.Proofs.Drawing.Overflow
import EntityDiagram.Proofs.Scalar.Exact
import EntityDiagram.Proofs.Svg.Template

/-! What a box has room for, in exact numbers. Every row is one line of text in the middle of a
band. The bands and the gap for the separator follow each other from the header to the bottom of the
box, so the height that was measured is used up; and between the side paddings there is room for the
title and for every row. -/
namespace EntityDiagram

/-- A strip across a box. -/
structure Band where
  top : Rat
  bottom : Rat

/-- Bands that follow each other downward, from a height to another. -/
inductive Fills : Rat → List Band → Rat → Prop
  | nil (y : Rat) : Fills y [] y
  | cons {top middle bottom : Rat} {rest : List Band} (le : top ≤ middle)
      (follow : Fills middle rest bottom) : Fills top (⟨top, middle⟩ :: rest) bottom

namespace Fills

variable {top middle bottom : Rat} {bands rest : List Band}

theorem append (h : Fills top bands middle) (hrest : Fills middle rest bottom) :
    Fills top (bands ++ rest) bottom := by
  induction h with
  | nil y => exact hrest
  | cons le follow ih => exact .cons le (ih hrest)

theorem le (h : Fills top bands bottom) : top ≤ bottom := by
  induction h with
  | nil y => exact le_rfl
  | cons le follow ih => exact le.trans ih

theorem within (h : Fills top bands bottom) : ∀ b ∈ bands, top ≤ b.top ∧ b.bottom ≤ bottom := by
  induction h with
  | nil y => simp
  | cons le follow ih =>
    intro b hb
    rcases List.mem_cons.mp hb with rfl | hb
    · exact ⟨le_rfl, follow.le⟩
    · exact ⟨le.trans (ih b hb).1, (ih b hb).2⟩

/-- No band begins before the one above it ends. -/
theorem pairwise (h : Fills top bands bottom) :
    bands.Pairwise fun a b => a.bottom ≤ b.top := by
  induction h with
  | nil y => exact .nil
  | cons le follow ih => exact .cons (fun b hb => (follow.within b hb).1) ih

end Fills

namespace PlacedRow

/-- The band of a row. -/
def band (r : PlacedRow Rat) : Band := ⟨r.top, r.top + Measure.rowHeight⟩

section

variable {top bottom : Rat} {keys others : List (PlacedRow Rat)} {gap : Band}
  (h : Fills top (keys.map band ++ gap :: others.map band) bottom)
include h

/-- Rows whose bands fill a space with a gap between them stand in order inside of it. -/
theorem downward_of_fills :
    (keys ++ others).Pairwise fun r s => r.top + Measure.rowHeight ≤ s.top := by
  have hsublist : ((keys ++ others).map band).Sublist
      (keys.map band ++ gap :: others.map band) := by
    rw [List.map_append]
    exact (List.sublist_cons_self gap _).append_left _
  exact List.pairwise_map.mp (h.pairwise.sublist hsublist)

theorem inside_of_fills : ∀ r ∈ keys ++ others,
    top ≤ r.top ∧ r.top + Measure.rowHeight ≤ bottom := by
  intro r hr
  refine h.within r.band ?_
  rcases List.mem_append.mp hr with hr | hr
  · exact List.mem_append_left _ (List.mem_map_of_mem hr)
  · exact List.mem_append_right _ (List.mem_cons_of_mem _ (List.mem_map_of_mem hr))

theorem separated_of_fills :
    (∀ r ∈ keys, r.top + Measure.rowHeight ≤ gap.top) ∧ ∀ r ∈ others, gap.bottom ≤ r.top := by
  obtain ⟨-, hothers, hkeys⟩ := List.pairwise_append.mp h.pairwise
  refine ⟨?_, ?_⟩
  · intro r hr
    exact hkeys r.band (List.mem_map_of_mem hr) gap List.mem_cons_self
  · intro r hr
    exact (List.pairwise_cons.mp hothers).1 r.band (List.mem_map_of_mem hr)

end

theorem map_content_stack (top : Rat) (rows : List String) :
    (stack top rows).map (·.content) = rows := by
  induction rows generalizing top with
  | nil => rfl
  | cons row rest ih => rw [stack, List.map_cons, ih]

theorem stackBottom_eq (top : Rat) (rows : List String) :
    stackBottom top rows = top + rows.length * Measure.rowHeight := by
  induction rows generalizing top with
  | nil => simp [stackBottom]
  | cons row rest ih =>
    rw [stackBottom, ih, List.length_cons]
    push_cast
    ring

theorem fills_stack (top : Rat) (rows : List String) :
    Fills top ((stack top rows).map band) (stackBottom top rows) := by
  have hrow : (0 : Rat) ≤ Measure.rowHeight := by decide +kernel
  induction rows generalizing top with
  | nil => exact .nil top
  | cons row rest ih => exact .cons (le_add_of_nonneg_right hrow) (ih _)

end PlacedRow

namespace Measure

/-- A box with attributes has room for a header, a row for each of them and the separator. -/
theorem height_entity {e : Entity} (h : e.attributes ≠ []) : (entity e : Size Rat).height =
    headerHeight + e.attributes.length * rowHeight + separatorHeight := by
  have hlength : e.attributes.length ≠ 0 := fun hzero => h (List.length_eq_zero_iff.mp hzero)
  have hrows : max (e.attributes.length : Int) 1 = e.attributes.length := by omega
  unfold entity
  simp only [if_neg hlength, hrows]
  rfl

theorem le_width_entity (e : Entity) :
    textWidth e.name titleSize titleWeight + sidePadding * 2 ≤ (entity e : Size Rat).width ∧
      ∀ a ∈ e.attributes,
        monospaceWidth a.row rowSize + sidePadding * 2 ≤ (entity e : Size Rat).width := by
  have hwidth : (entity e : Size Rat).width =
      max (max minimalWidth (textWidth e.name titleSize titleWeight + sidePadding * 2))
        (widestRow e.attributes + sidePadding * 2) := by
    rw [← Scalar.larger_exact, ← Scalar.larger_exact]
    rfl
  rw [hwidth]
  refine ⟨le_max_of_le_left (le_max_right _ _), ?_⟩
  intro a ha
  have hwidest : monospaceWidth a.row rowSize ≤ (widestRow e.attributes : Rat) :=
    Scalar.le_greatestOf (List.mem_cons_of_mem 0 (List.mem_map_of_mem ha))
  exact le_max_of_le_right (by linarith)

end Measure

namespace Box

/-- The line of a frame, with the corners of a weak entity rounded. -/
def frameText (b : Box Rat) : String :=
  let radius := if b.style = .weakEntity then "8" else "0"
  "<rect x=\"" ++ Scalar.text b.rect.x ++ "\" y=\"" ++ Scalar.text b.rect.y ++
    "\" width=\"" ++ Scalar.text b.rect.width ++ "\" height=\"" ++ Scalar.text b.rect.height ++
    "\" rx=\"" ++ radius ++ "\" ry=\"" ++ radius ++
    "\" fill=\"#FFFFFF\" stroke=\"#27272A\" stroke-width=\"1\" class=\"" ++ b.style.tag ++ "\" />"

/-- The line of a title, in the middle of the header. -/
def titleText (b : Box Rat) : String :=
  "<text x=\"" ++ Scalar.text b.rect.center.x ++ "\" y=\"" ++ Scalar.text (b.rect.y + 16) ++
    "\" text-anchor=\"middle\" dy=\"0.35em\" font-size=\"13\" font-weight=\"700\"" ++
    " fill=\"#27272A\">" ++ Svg.escaped b.title ++ "</text>"

/-- The line of a row, in the middle of its band and a padding inside the box. -/
def rowText (b : Box Rat) (decoration : String) (r : PlacedRow Rat) : String :=
  "<text x=\"" ++ Scalar.text (b.rect.x + 12) ++ "\" y=\"" ++ Scalar.text (r.top + 11) ++
    "\" class=\"mono\" dy=\"0.35em\" font-size=\"11\" font-weight=\"400\" fill=\"#27272A\"" ++
    decoration ++ ">" ++ Svg.escaped r.content ++ "</text>"

/-- The line of a separator, from side to side. -/
def separatorText (b : Box Rat) (y : Rat) : String :=
  "<line x1=\"" ++ Scalar.text b.rect.x ++ "\" y1=\"" ++ Scalar.text y ++
    "\" x2=\"" ++ Scalar.text b.rect.right ++ "\" y2=\"" ++ Scalar.text y ++
    "\" stroke=\"#27272A\" stroke-width=\"0.75\" />"

/-- All lines of a box: its frame and its title, then one line for each row, the key rows underlined
and a separator below them. -/
def linesText (b : Box Rat) : List String :=
  [b.frameText, b.titleText] ++
    b.placedKeyRows.map (b.rowText " text-decoration=\"underline\"") ++
    b.separator?.toList.map b.separatorText ++ b.placedOtherRows.map (b.rowText "")

variable (b : Box Rat)

theorem text_boxFrame : (Svg.boxFrame b).text = b.frameText := by
  unfold frameText Svg.boxFrame
  generalize (if b.style = .weakEntity then "8" else "0") = radius
  generalize b.style.tag = style
  simp [Svg.element, Svg.Line.text_cons, Svg.text_nil, Svg.Piece.text, Svg.attributesText,
    Svg.attributeText, Svg.foreground, Svg.background, ← String.toList_inj]

theorem text_boxTitle : (Svg.boxTitle b).text = b.titleText := by
  have hhalf : (Measure.headerHeight / 2 : Rat) = 16 := by
    change (32 / 2 : Rat) = 16
    norm_num
  unfold titleText Svg.boxTitle
  rw [hhalf]
  simp [Svg.textElement, Svg.Line.text_cons, Svg.text_nil, Svg.Piece.text, Svg.attributesText,
    Svg.attributeText, Svg.baselineShift, Svg.foreground, Svg.escaped, Rect.center,
    ← String.toList_inj]

theorem text_row (isKey : Bool) (r : PlacedRow Rat) : (Svg.row b.rect.x isKey r).text =
    b.rowText (if isKey then " text-decoration=\"underline\"" else "") r := by
  have hx : b.rect.x + Measure.sidePadding = b.rect.x + 12 := rfl
  have hhalf : (Measure.rowHeight / 2 : Rat) = 11 := by
    change (22 / 2 : Rat) = 11
    norm_num
  unfold rowText Svg.row
  rw [hx, hhalf]
  cases isKey <;>
    simp [Svg.textElement, Svg.Line.text_cons, Svg.text_nil, Svg.Piece.text, Svg.attributesText,
      Svg.attributeText, Svg.baselineShift, Svg.foreground, Svg.escaped, ← String.toList_inj]

theorem text_boxSeparator (y : Rat) : (Svg.boxSeparator b y).text = b.separatorText y := by
  unfold separatorText Svg.boxSeparator
  simp [Svg.element, Svg.Line.text_cons, Svg.text_nil, Svg.Piece.text, Svg.attributesText,
    Svg.attributeText, Svg.foreground, Rect.right, ← String.toList_inj]

theorem map_text_row (isKey : Bool) (rows : List (PlacedRow Rat)) :
    (rows.map (Svg.row b.rect.x isKey)).map Svg.Line.text =
      rows.map (b.rowText (if isKey then " text-decoration=\"underline\"" else "")) := by
  rw [List.map_map]
  exact List.map_congr_left fun r _ => b.text_row isKey r

theorem map_text_boxLines : (Svg.boxLines b).map Svg.Line.text = b.linesText := by
  have hseparator : (b.separator?.toList.map (Svg.boxSeparator b)).map Svg.Line.text =
      b.separator?.toList.map b.separatorText := by
    rw [List.map_map]
    exact List.map_congr_left fun y _ => b.text_boxSeparator y
  rw [Svg.boxLines, List.map_append, List.map_append, List.map_append, map_text_row, map_text_row,
    hseparator, List.map_cons, List.map_singleton, text_boxFrame, text_boxTitle]
  rfl

end Box

/-- A box with room for an entity. Its rows are those of all attributes, the key first, in bands of
one height that fill the box together with the gap for the separator, and no row and no title is
wider than the box without its side paddings. -/
structure Box.HasRoomFor (b : Box Rat) (e : Entity) : Prop where
  contents_keys : b.placedKeyRows.map (·.content) = e.key.map (·.row)
  contents_others : b.placedOtherRows.map (·.content) = e.others.map (·.row)
  downward : (b.placedKeyRows ++ b.placedOtherRows).Pairwise fun r s =>
    r.top + Measure.rowHeight ≤ s.top
  inside : ∀ r ∈ b.placedKeyRows ++ b.placedOtherRows,
    b.rect.y + Measure.headerHeight ≤ r.top ∧ r.top + Measure.rowHeight ≤ b.rect.bottom
  filled : e.attributes ≠ [] → ∃ gap : Band, gap.bottom = gap.top + Measure.separatorHeight ∧
    Fills (b.rect.y + Measure.headerHeight)
      (b.placedKeyRows.map PlacedRow.band ++ gap :: b.placedOtherRows.map PlacedRow.band)
      b.rect.bottom ∧
    ∀ y ∈ b.separator?, gap.top ≤ y ∧ y ≤ gap.bottom
  separator_isSome_iff : b.separator?.isSome ↔ e.attributes ≠ []
  separated : ∀ y ∈ b.separator?,
    (∀ r ∈ b.placedKeyRows, r.top + Measure.rowHeight ≤ y) ∧ ∀ r ∈ b.placedOtherRows, y ≤ r.top
  rows_fit : ∀ r ∈ b.placedKeyRows ++ b.placedOtherRows,
    b.rect.x + Measure.sidePadding + Measure.monospaceWidth r.content Measure.rowSize ≤
      b.rect.right - Measure.sidePadding
  title_fits :
    let half := Measure.textWidth b.title Measure.titleSize Measure.titleWeight / 2
    b.rect.x + Measure.sidePadding ≤ b.rect.center.x - half ∧
      b.rect.center.x + half ≤ b.rect.right - Measure.sidePadding

namespace Node

/-- The box that an entity has at a corner when it is measured. -/
def measuredBox (n : Node Rat) (corner : Point Rat) : Box Rat :=
  let size := Measure.entity n.toEntity
  n.boxIn ⟨corner.x, corner.y, size.width, size.height⟩

variable (n : Node Rat) (corner : Point Rat)

/-- The gap between the key rows of a box and its other rows. -/
def separatorGap : Band :=
  let top := (n.measuredBox corner).keyRowsBottom
  ⟨top, top + Measure.separatorHeight⟩

theorem bottom_others (h : n.attributes ≠ []) : PlacedRow.stackBottom
    ((n.measuredBox corner).keyRowsBottom + Measure.separatorHeight) (n.others.map (·.row)) =
      (n.measuredBox corner).rect.bottom := by
  have hkeys : (n.measuredBox corner).keyRowsBottom =
      corner.y + Measure.headerHeight + n.key.length * Measure.rowHeight := by
    rw [← List.length_map (fun a : Attribute => a.row)]
    exact PlacedRow.stackBottom_eq _ _
  have hbottom : (n.measuredBox corner).rect.bottom =
      corner.y + (Measure.headerHeight + n.attributes.length * Measure.rowHeight +
        Measure.separatorHeight) := by
    rw [← Measure.height_entity h]
    rfl
  rw [PlacedRow.stackBottom_eq, hkeys, hbottom, Entity.attributes, List.length_map,
    List.length_append]
  push_cast
  ring

/-- The rows and the gap use up the measured height. -/
theorem fills_measuredBox (h : n.attributes ≠ []) :
    Fills (n.measuredBox corner).rowsTop
      ((n.measuredBox corner).placedKeyRows.map PlacedRow.band ++
        n.separatorGap corner :: (n.measuredBox corner).placedOtherRows.map PlacedRow.band)
      (n.measuredBox corner).rect.bottom := by
  have hgap : (0 : Rat) ≤ Measure.separatorHeight := by decide +kernel
  have hkeys := PlacedRow.fills_stack (n.measuredBox corner).rowsTop (n.key.map (·.row))
  have hothers := PlacedRow.fills_stack
    ((n.measuredBox corner).keyRowsBottom + Measure.separatorHeight) (n.others.map (·.row))
  rw [n.bottom_others corner h] at hothers
  exact hkeys.append (.cons (le_add_of_nonneg_right hgap) hothers)

/-- A box without attributes has neither rows nor a separator. -/
theorem measuredBox_eq_nil (h : n.attributes = []) :
    (n.measuredBox corner).placedKeyRows = [] ∧ (n.measuredBox corner).placedOtherRows = [] ∧
      (n.measuredBox corner).separator? = none := by
  obtain ⟨hkey, hothers⟩ := List.append_eq_nil_iff.mp h
  simp [measuredBox, boxIn, Box.placedKeyRows, Box.placedOtherRows, Box.separator?, hkey, hothers,
    PlacedRow.stack]

theorem separator?_measuredBox (h : n.attributes ≠ []) :
    (n.measuredBox corner).separator? =
      some ((n.separatorGap corner).top + Measure.separatorHeight / 2) := by
  have hrows : ((n.key.map (·.row)).isEmpty && (n.others.map (·.row)).isEmpty) = false := by
    rw [Bool.and_eq_false_iff]
    simpa [Entity.attributes, imp_iff_not_or] using h
  exact if_neg (by rw [← Bool.not_eq_true] at hrows; exact hrows)

/-- Every row of a measured box is as wide as the box allows, or less. -/
theorem rows_fit_measuredBox {r : PlacedRow Rat}
    (hr : r ∈ (n.measuredBox corner).placedKeyRows ++ (n.measuredBox corner).placedOtherRows) :
    corner.x + Measure.sidePadding + Measure.monospaceWidth r.content Measure.rowSize ≤
      (n.measuredBox corner).rect.right - Measure.sidePadding := by
  have hcontent : r.content ∈ n.attributes.map (·.row) := by
    have hmem := List.mem_map_of_mem (f := (·.content)) hr
    rw [List.map_append, Box.placedKeyRows, Box.placedOtherRows, PlacedRow.map_content_stack,
      PlacedRow.map_content_stack] at hmem
    rw [Entity.attributes, List.map_append]
    exact hmem
  obtain ⟨a, ha, hrow⟩ := List.mem_map.mp hcontent
  have hwidth := (Measure.le_width_entity n.toEntity).2 a ha
  have hright : (n.measuredBox corner).rect.right =
      corner.x + (Measure.entity n.toEntity : Size Rat).width := rfl
  rw [← hrow, hright]
  linarith

/-- The title of a measured box, centered, keeps the side paddings free. -/
theorem title_fits_measuredBox :
    let half := Measure.textWidth n.name Measure.titleSize Measure.titleWeight / 2
    corner.x + Measure.sidePadding ≤ (n.measuredBox corner).rect.center.x - half ∧
      (n.measuredBox corner).rect.center.x + half ≤
        (n.measuredBox corner).rect.right - Measure.sidePadding := by
  have hwidth := (Measure.le_width_entity n.toEntity).1
  have hright : (n.measuredBox corner).rect.right =
      corner.x + (Measure.entity n.toEntity : Size Rat).width := rfl
  have hcenter : (n.measuredBox corner).rect.center.x =
      corner.x + (Measure.entity n.toEntity : Size Rat).width / 2 := rfl
  intro half
  rw [hright, hcenter]
  dsimp only [half]
  constructor <;> linarith

/-- A measured box has room for all rows of its entity. -/
theorem hasRoomFor_measuredBox : (n.measuredBox corner).HasRoomFor n.toEntity := by
  have hkeys : (n.measuredBox corner).placedKeyRows.map (·.content) = n.key.map (·.row) :=
    PlacedRow.map_content_stack _ _
  have hothers : (n.measuredBox corner).placedOtherRows.map (·.content) = n.others.map (·.row) :=
    PlacedRow.map_content_stack _ _
  have hfit := fun r => n.rows_fit_measuredBox corner (r := r)
  have htitle := n.title_fits_measuredBox corner
  by_cases h : n.attributes = []
  · obtain ⟨hnoKeys, hnoOthers, hnone⟩ := n.measuredBox_eq_nil corner h
    refine ⟨hkeys, hothers, ?_, ?_, fun hsome => absurd h hsome, by simp [hnone, h],
      by simp [hnone], hfit, htitle⟩
    · rw [hnoKeys, hnoOthers]
      exact .nil
    · rw [hnoKeys, hnoOthers]
      simp
  · have hfills := n.fills_measuredBox corner h
    obtain ⟨habove, hbelow⟩ := PlacedRow.separated_of_fills hfills
    have hwithin : ∀ y ∈ (n.measuredBox corner).separator?,
        (n.separatorGap corner).top ≤ y ∧ y ≤ (n.separatorGap corner).bottom := by
      intro y hy
      rw [n.separator?_measuredBox corner h] at hy
      obtain rfl := Option.mem_some_iff.mp hy
      have hhalf : (0 : Rat) ≤ Measure.separatorHeight / 2 := by decide +kernel
      have hle : (Measure.separatorHeight / 2 : Rat) ≤ Measure.separatorHeight := by decide +kernel
      exact ⟨le_add_of_nonneg_right hhalf, add_le_add_right hle _⟩
    refine ⟨hkeys, hothers, PlacedRow.downward_of_fills hfills, PlacedRow.inside_of_fills hfills,
      fun _ => ⟨n.separatorGap corner, rfl, hfills, hwithin⟩, ?_, ?_, hfit, htitle⟩
    · rw [n.separator?_measuredBox corner h]
      simp [h]
    · intro y hy
      obtain ⟨htop, hbottom⟩ := hwithin y hy
      exact ⟨fun r hr => (habove r hr).trans htop, fun r hr => hbottom.trans (hbelow r hr)⟩

end Node

namespace Diagram

/-- An entity that is placed and measured is drawn as a box with room for its title and all of its
rows. What is written for the box is its frame, its title, a line for each key row, the separator,
and a line for each other row, in this order; each of these lines stands in the middle of the band
that the box has for it. -/
theorem drawn_box_has_room (d : Diagram Rat) {n : Node Rat} (hn : n ∈ d.nodes) {corner : Point Rat}
    (hposition : n.position = some corner) (hbounds : n.bounds = some (Measure.entity n.toEntity)) :
    ∃ drawing box, d.draw = .ok drawing ∧ .box box ∈ drawing.primitives ∧
      box.title = n.name ∧ box.rect.x = corner.x ∧ box.rect.y = corner.y ∧
      (Svg.boxLines box).map Svg.Line.text = box.linesText ∧ box.HasRoomFor n.toEntity := by
  obtain ⟨drawing, hdraw⟩ := d.exists_draw_eq_ok_exact
  have hrect : n.rect = .ok (n.measuredBox corner).rect :=
    Node.rect_eq_ok_iff.mpr ⟨corner, _, hposition, hbounds, rfl⟩
  exact ⟨drawing, n.measuredBox corner, hdraw, box_mem_of_draw_eq_ok hdraw hn hrect, rfl, rfl, rfl,
    (n.measuredBox corner).map_text_boxLines, n.hasRoomFor_measuredBox corner⟩

/-- A weak entity with a long row: the separator stands right under the header. -/
theorem drawn_box_has_room_of_weak_entity :
    let n : Node Rat :=
      { name := "Line"
        key := []
        others := [⟨"order", "number", false, false, none⟩, ⟨"note", "text", true, true, none⟩]
        position := some ⟨-7, 1 / 2⟩
        bounds := some ⟨747 / 5, 82⟩ }
    n.bounds = some (Measure.entity n.toEntity) ∧
      ∃ drawing box, Diagram.draw ⟨[n], [], []⟩ = .ok drawing ∧
        .box box ∈ drawing.primitives ∧ box.rect.x = -7 ∧ box.HasRoomFor n.toEntity ∧
        (Svg.boxLines box).length = 5 := by
  intro n
  have hposition : n.position = some ⟨-7, 1 / 2⟩ := rfl
  have hbounds : n.bounds = some (Measure.entity n.toEntity) := by decide +kernel
  obtain ⟨drawing, box, hdraw, hbox, -, hx, -, hlines, hroom⟩ :=
    drawn_box_has_room ⟨[n], [], []⟩ List.mem_cons_self hposition hbounds
  refine ⟨hbounds, drawing, box, hdraw, hbox, hx, hroom, ?_⟩
  have hkeys : box.placedKeyRows = [] := List.map_eq_nil_iff.mp hroom.contents_keys
  have hothers : box.placedOtherRows.length = 2 := by
    rw [← List.length_map (fun r : PlacedRow Rat => r.content), hroom.contents_others]
    rfl
  obtain ⟨y, hy⟩ := Option.isSome_iff_exists.mp
    (hroom.separator_isSome_iff.mpr (List.cons_ne_nil _ _))
  rw [← List.length_map Svg.Line.text, hlines]
  simp [Box.linesText, hkeys, hothers, hy]

end Diagram

end EntityDiagram
