import EntityDiagram.Proofs.Layout.Cells
import EntityDiagram.Proofs.Layout.Unplaced
import EntityDiagram.Scalar.Number

/-! The cells of a grid, on whole numbers. Every entity stands in the cell of its number, wherever
it stood before, the cells are the padding apart, and they follow each other row by row. So boxes
that are no larger than a cell do not overlap, whatever kind of number they are measured with. -/
namespace EntityDiagram

namespace Options

/-- What the options ask of a grid. A padding of zero is asked for; a size of zero is left open. -/
structure AskFor (o : Options) (padding width height : Int) : Prop where
  padding : o.padding = some padding ∨ o.padding = none ∧ padding = 150
  width : o.cellWidth = some width ∧ width ≠ 0 ∨
    (o.cellWidth = none ∨ o.cellWidth = some 0) ∧ width = 200
  height : o.cellHeight = some height ∧ height ≠ 0 ∨
    (o.cellHeight = none ∨ o.cellHeight = some 0) ∧ height = 200

theorem orDefault_eq {choice : Option Int} {default size : Int}
    (h : choice = some size ∧ size ≠ 0 ∨ (choice = none ∨ choice = some 0) ∧ size = default) :
    orDefault choice default = size := by
  rcases h with ⟨rfl, hsize⟩ | ⟨rfl | rfl, rfl⟩
  · exact if_neg hsize
  · rfl
  · rfl

variable {o : Options} {padding width height : Int} (h : o.AskFor padding width height)
include h

theorem AskFor.paddingSize_eq : o.paddingSize = padding := by
  rcases h.padding with hpadding | ⟨hpadding, rfl⟩ <;> rw [paddingSize, hpadding] <;> rfl

theorem AskFor.cellWidthSize_eq : o.cellWidthSize = width := orDefault_eq h.width

theorem AskFor.cellHeightSize_eq : o.cellHeightSize = height := orDefault_eq h.height

end Options

/-- The exact value of a finite number. -/
def Number.HasValue (a : Number) (value : Rat) : Prop :=
  ∃ negative, a.exactReading = .finite negative value

theorem Number.HasValue.eq_of_whole {n : Int} {value : Rat} (h : (whole n).HasValue value) :
    value = n := by
  obtain ⟨negative, hvalue⟩ := h
  exact (Reading.finite.inj hvalue).2.symm

/-- An entity has a rectangle of these exact values. -/
def Node.HasExactRect (n : Node Number) (exact : Rect Rat) : Prop :=
  ∃ rect, n.rect = .ok rect ∧ (rect.x.HasValue exact.x ∧ rect.y.HasValue exact.y) ∧
    rect.width.HasValue exact.width ∧ rect.height.HasValue exact.height

/-- An entity has a rectangle of these exact values, not larger than a cell. -/
structure Node.HasBoxWithin (n : Node Number) (width height : Int) (exact : Rect Rat) : Prop where
  rect : n.HasExactRect exact
  width_le : exact.width ≤ width
  height_le : exact.height ≤ height

namespace Rect

/-- A rectangle covers no more than a larger one with the same corner. -/
theorem Covers.mono {r s : Rect Rat} {p : Point Rat} (h : r.Covers p) (hx : r.x = s.x)
    (hy : r.y = s.y) (hwidth : r.width ≤ s.width) (hheight : r.height ≤ s.height) :
    s.Covers p := by
  obtain ⟨⟨hleft, hright⟩, htop, hbottom⟩ := h
  rw [right_exact] at hright
  rw [bottom_exact] at hbottom
  rw [Covers, right_exact, bottom_exact, ← hx, ← hy]
  exact ⟨⟨hleft, by linarith⟩, htop, by linarith⟩

end Rect

namespace Grid

/-- Later cells are further down, or in the same row further to the right. -/
theorem row_lt_or_column_lt (columns : Nat) {i j : Nat} (h : i < j) :
    i / columns < j / columns ∨ i / columns = j / columns ∧ i % columns < j % columns := by
  rcases (Nat.div_le_div_right (c := columns) h.le).lt_or_eq with hrow | hrow
  · exact .inl hrow
  · refine .inr ⟨hrow, ?_⟩
    have hi := Nat.div_add_mod i columns
    have hj := Nat.div_add_mod j columns
    rw [hrow] at hi
    omega

/-- Corners follow each other from the top to the bottom, and in a row from left to right. -/
theorem corner_increases {o : Options} (hwidth : 0 < o.cellWidthSize + o.paddingSize)
    (hheight : 0 < o.cellHeightSize + o.paddingSize) (columns : Nat) {i j : Nat} (h : i < j) :
    (corner o columns i).y < (corner o columns j).y ∨
      (corner o columns i).y = (corner o columns j).y ∧
        (corner o columns i).x < (corner o columns j).x := by
  unfold corner
  rcases row_lt_or_column_lt columns h with hrow | ⟨hrow, hcolumn⟩
  · have hrows : ((i / columns : Nat) : Int) < (j / columns : Nat) := Int.ofNat_lt.mpr hrow
    exact .inl (Int.add_lt_add_left (Int.mul_lt_mul_of_pos_right hrows hheight) _)
  · have hcolumns : ((i % columns : Nat) : Int) < (j % columns : Nat) := Int.ofNat_lt.mpr hcolumn
    refine .inr ⟨by rw [hrow], ?_⟩
    exact Int.add_lt_add_left (Int.mul_lt_mul_of_pos_right hcolumns hwidth) _

theorem one_le_gridColumns (count : Nat) : 1 ≤ gridColumns count := Nat.le_max_left _ _

/-- The cell of an entity, with its size. -/
def cell (o : Options) (columns index : Nat) : Rect Rat :=
  box o columns index ⟨o.cellWidthSize, o.cellHeightSize⟩

theorem cells_apartBy {o : Options} (hpadding : 0 ≤ o.paddingSize) (hwidth : 0 ≤ o.cellWidthSize)
    (hheight : 0 ≤ o.cellHeightSize) (columns : Nat) {i j : Nat} (h : i ≠ j) :
    Rect.ApartBy o.paddingSize (cell o columns i) (cell o columns j) := by
  have hcellWidth : (0 : Rat) ≤ o.cellWidthSize := by exact_mod_cast hwidth
  have hcellHeight : (0 : Rat) ≤ o.cellHeightSize := by exact_mod_cast hheight
  have hfits : Fits o ⟨o.cellWidthSize, o.cellHeightSize⟩ :=
    ⟨hcellWidth, hcellHeight, le_rfl, le_rfl⟩
  exact apartBy_box h hfits hfits hpadding

/-- A box at the corner of a cell, not larger than it, covers nothing outside. -/
theorem covers_cell {o : Options} {columns index : Nat} {n : Node Number} {exact : Rect Rat}
    (hbox : Node.HasBoxWithin { n with position := some (position o columns index) }
      o.cellWidthSize o.cellHeightSize exact)
    {p : Point Rat} (hp : exact.Covers p) : (cell o columns index).Covers p := by
  obtain ⟨rect, hrect, ⟨hx, hy⟩, -⟩ := hbox.rect
  obtain ⟨place, size, hplace, -, rfl⟩ := Node.rect_eq_ok_iff.mp hrect
  obtain rfl := Option.some.inj hplace
  exact hp.mono hx.eq_of_whole hy.eq_of_whole hbox.width_le hbox.height_le

end Grid

namespace Diagram

/-- A grid reads nothing of where entities stood before. -/
theorem grid_eq_of_unplaced_eq {α : Type} [Scalar α] {d e : Diagram α}
    (h : e.unplaced = d.unplaced) (o : Options) : e.grid o = d.grid o := by
  rw [← e.grid_unplaced o, h, d.grid_unplaced o]

/-- Boxes of different entities do not overlap on a grid whose cells are no smaller. -/
theorem not_covers_grid {d : Diagram Number} {o : Options} (hpadding : 0 ≤ o.paddingSize)
    (hwidth : 0 ≤ o.cellWidthSize) (hheight : 0 ≤ o.cellHeightSize) {i j : Nat} (hne : i ≠ j)
    {n m : Node Number} (hn : (d.grid o).nodes[i]? = some n) (hm : (d.grid o).nodes[j]? = some m)
    {r s : Rect Rat} (hr : n.HasBoxWithin o.cellWidthSize o.cellHeightSize r)
    (hs : m.HasBoxWithin o.cellWidthSize o.cellHeightSize s) {p : Point Rat} (hp : r.Covers p) :
    ¬ s.Covers p := by
  have hgap : (0 : Rat) ≤ o.paddingSize := by exact_mod_cast hpadding
  obtain ⟨n, -, rfl⟩ := exists_of_getElem?_grid hn
  obtain ⟨m, -, rfl⟩ := exists_of_getElem?_grid hm
  have hcells := Grid.cells_apartBy hpadding hwidth hheight (gridColumns d.nodes.length) hne
  intro hq
  exact hcells.disjoint hgap (Grid.covers_cell hr hp) (Grid.covers_cell hs hq)

/-- A grid with a padding and cells of a size places every entity in the column and the row of its
number, however many columns there are, and changes nothing else; where the entities stood before
is forgotten. Different cells are the padding apart, boxes that are no larger than a cell do not
overlap, and the corners follow each other row by row and from left to right. -/
theorem grid_gives_own_cells {o : Options} {padding width height : Int}
    (hask : o.AskFor padding width height) (hpadding : 0 ≤ padding) (hwidth : 0 < width)
    (hheight : 0 < height) (d : Diagram Number) :
    let columns := gridColumns d.nodes.length
    let corner (i : Nat) : Point Int := ⟨padding + (i % columns : Nat) * (width + padding),
      padding + (i / columns : Nat) * (height + padding)⟩
    let cell (i : Nat) : Rect Rat := ⟨(corner i).x, (corner i).y, width, height⟩
    1 ≤ columns ∧
      (∀ e : Diagram Number, e.unplaced = d.unplaced → (e.grid o).schema = d.schema ∧
        (e.grid o).nodes = d.nodes.mapIdx fun i n =>
          { n with position := some ⟨.whole (corner i).x, .whole (corner i).y⟩ }) ∧
      (∀ i j, i ≠ j → Rect.ApartBy padding (cell i) (cell j)) ∧
      (∀ (i j : Nat) (n m : Node Number) (r s : Rect Rat), i ≠ j →
        (d.grid o).nodes[i]? = some n → (d.grid o).nodes[j]? = some m →
        n.HasBoxWithin width height r → m.HasBoxWithin width height s →
        ∀ p, r.Covers p → ¬ s.Covers p) ∧
      ∀ i j, i < j → (corner i).y < (corner j).y ∨
        (corner i).y = (corner j).y ∧ (corner i).x < (corner j).x := by
  obtain rfl := hask.paddingSize_eq
  obtain rfl := hask.cellWidthSize_eq
  obtain rfl := hask.cellHeightSize_eq
  intro columns corner cell
  refine ⟨Grid.one_le_gridColumns _, ?_, ?_, ?_, ?_⟩
  · intro e he
    rw [grid_eq_of_unplaced_eq he]
    exact ⟨(d.places_grid o).schema_eq, rfl⟩
  · intro i j hne
    exact Grid.cells_apartBy hpadding hwidth.le hheight.le columns hne
  · intro i j n m r s hne hn hm hr hs p hp
    exact not_covers_grid hpadding hwidth.le hheight.le hne hn hm hr hs hp
  · intro i j hlt
    exact Grid.corner_increases (by omega) (by omega) columns hlt

/-- Cells that touch: no padding, and boxes as large as the cells, one of them placed before. -/
theorem grid_gives_own_cells_of_touching :
    let o : Options :=
      { Options.default with padding := some 0, cellWidth := some 40, cellHeight := some 0 }
    let d : Diagram Number :=
      { nodes := [⟨⟨"A", [], []⟩, some ⟨.double 7, .double 3⟩, some ⟨.whole 40, .whole 200⟩⟩,
          ⟨⟨"B", [], []⟩, none, some ⟨.whole 40, .whole 200⟩⟩, ⟨⟨"C", [], []⟩, none, none⟩]
        relationships := []
        generalizations := [] }
    o.AskFor 0 40 200 ∧
      (d.grid o).nodes.map (·.position) = [some ⟨.whole 0, .whole 0⟩, some ⟨.whole 40, .whole 0⟩,
        some ⟨.whole 0, .whole 200⟩] ∧
      ∀ p, Rect.Covers ⟨0, 0, 40, 200⟩ p → ¬ Rect.Covers ⟨40, 0, 40, 200⟩ p := by
  intro o d
  have hask : o.AskFor 0 40 200 := ⟨.inl rfl, .inl ⟨rfl, by decide⟩, .inr ⟨.inr rfl, rfl⟩⟩
  have hcolumns : gridColumns 3 = 2 := by decide +kernel
  obtain ⟨-, hplaced, -, hdisjoint, -⟩ :=
    grid_gives_own_cells hask (by decide) (by decide) (by decide) d
  have hnodes := (hplaced d rfl).2
  have hlength : d.nodes.length = 3 := rfl
  rw [hlength, hcolumns] at hnodes
  have hfirst : Node.HasBoxWithin ⟨⟨"A", [], []⟩, some ⟨.whole 0, .whole 0⟩,
      some ⟨.whole 40, .whole 200⟩⟩ 40 200 ⟨0, 0, 40, 200⟩ :=
    ⟨⟨_, rfl, ⟨⟨_, rfl⟩, ⟨_, rfl⟩⟩, ⟨_, rfl⟩, ⟨_, rfl⟩⟩, le_rfl, le_rfl⟩
  have hsecond : Node.HasBoxWithin ⟨⟨"B", [], []⟩, some ⟨.whole 40, .whole 0⟩,
      some ⟨.whole 40, .whole 200⟩⟩ 40 200 ⟨40, 0, 40, 200⟩ :=
    ⟨⟨_, rfl, ⟨⟨_, rfl⟩, ⟨_, rfl⟩⟩, ⟨_, rfl⟩, ⟨_, rfl⟩⟩, le_rfl, le_rfl⟩
  refine ⟨hask, by rw [hnodes]; rfl, ?_⟩
  exact hdisjoint 0 1 _ _ _ _ (by decide) (by rw [hnodes]; rfl) (by rw [hnodes]; rfl) hfirst
    hsecond

end Diagram

end EntityDiagram
