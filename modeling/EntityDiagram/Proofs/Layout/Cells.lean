import EntityDiagram.Proofs.Drawing.Isolation
import EntityDiagram.Proofs.Layout.Columns
import EntityDiagram.Proofs.Layout.Placement

/-! Boxes in the cells of a grid, in exact numbers. Two entities never share a cell, so where every
box fits into its cell, any two boxes are the padding apart. -/
namespace EntityDiagram

namespace Grid

/-- A size that is not negative and not larger than a cell. -/
structure Fits (o : Options) (size : Size Rat) : Prop where
  width_nonneg : 0 ≤ size.width
  height_nonneg : 0 ≤ size.height
  width_le : size.width ≤ o.cellWidthSize
  height_le : size.height ≤ o.cellHeightSize

/-- A box of a size in a cell. -/
def box (o : Options) (columns index : Nat) (size : Size Rat) : Rect Rat :=
  let corner : Point Rat := position o columns index
  ⟨corner.x, corner.y, size.width, size.height⟩

theorem x_box (o : Options) (columns index : Nat) (size : Size Rat) : (box o columns index size).x =
    o.paddingSize + (index % columns : Nat) * ((o.cellWidthSize : Rat) + o.paddingSize) := by
  change ((o.paddingSize + (index % columns : Nat) *
    (o.cellWidthSize + o.paddingSize) : Int) : Rat) = _
  push_cast
  rfl

theorem y_box (o : Options) (columns index : Nat) (size : Size Rat) : (box o columns index size).y =
    o.paddingSize + (index / columns : Nat) * ((o.cellHeightSize : Rat) + o.paddingSize) := by
  change ((o.paddingSize + (index / columns : Nat) *
    (o.cellHeightSize + o.paddingSize) : Int) : Rat) = _
  push_cast
  rfl

/-- Of two tracks the later begins a gap after the end of what fits into the earlier one. -/
theorem track_le (start : Rat) {first second : Nat} (h : first < second) {gap cell size : Rat}
    (hsize : 0 ≤ size) (hcell : size ≤ cell) (hgap : 0 ≤ gap) :
    start + first * (cell + gap) + size + gap ≤ start + second * (cell + gap) := by
  obtain ⟨between, rfl⟩ := Nat.exists_eq_add_of_lt h
  have hbetween : 0 ≤ (between : Rat) * (cell + gap) :=
    mul_nonneg (Nat.cast_nonneg between) (by linarith)
  push_cast
  linarith

variable {o : Options} {columns i j : Nat} {first second : Size Rat}

theorem leftOf_box (h : i % columns < j % columns) (hfits : Fits o first)
    (hpadding : 0 ≤ o.paddingSize) :
    Rect.LeftOf o.paddingSize (box o columns i first) (box o columns j second) := by
  have hgap : (0 : Rat) ≤ o.paddingSize := by exact_mod_cast hpadding
  rw [Rect.LeftOf, Rect.right_exact, x_box, x_box]
  exact track_le _ h hfits.width_nonneg hfits.width_le hgap

theorem above_box (h : i / columns < j / columns) (hfits : Fits o first)
    (hpadding : 0 ≤ o.paddingSize) :
    Rect.Above o.paddingSize (box o columns i first) (box o columns j second) := by
  have hgap : (0 : Rat) ≤ o.paddingSize := by exact_mod_cast hpadding
  rw [Rect.Above, Rect.bottom_exact, y_box, y_box]
  exact track_le _ h hfits.height_nonneg hfits.height_le hgap

/-- Boxes in different cells are the padding apart. -/
theorem apartBy_box (h : i ≠ j) (hfirst : Fits o first) (hsecond : Fits o second)
    (hpadding : 0 ≤ o.paddingSize) :
    Rect.ApartBy o.paddingSize (box o columns i first) (box o columns j second) := by
  rcases Nat.lt_trichotomy (i % columns) (j % columns) with hlt | hcolumn | hgt
  · exact .inl (.inl (leftOf_box hlt hfirst hpadding))
  · rcases Nat.lt_trichotomy (i / columns) (j / columns) with hlt | hrow | hgt
    · exact .inr (.inl (above_box hlt hfirst hpadding))
    · exact absurd (by rw [← Nat.div_add_mod i columns, hrow, hcolumn, Nat.div_add_mod]) h
    · exact .inr (.inr (above_box hgt hsecond hpadding))
  · exact .inl (.inr (leftOf_box hgt hsecond hpadding))

end Grid

namespace Diagram

/-- Every entity has a rectangle, none of a negative size, and those of different entities are a gap
apart. -/
structure IsSpread (d : Diagram Rat) (gap : Rat) : Prop where
  exists_rect : ∀ n ∈ d.nodes, ∃ rect, n.rect = .ok rect ∧ 0 ≤ rect.width ∧ 0 ≤ rect.height
  apart : ∀ a b first second, a ≠ b → d.HasRect a first → d.HasRect b second →
    Rect.ApartBy gap first second

/-- A rectangle on the grid is the box of its cell. -/
theorem exists_box_of_hasRect_grid {d : Diagram Rat} {o : Options} {name : String} {rect : Rect Rat}
    (h : (d.grid o).HasRect name rect) : ∃ index n size, d.nodes[index]? = some n ∧ n.name = name ∧
      n.bounds = some size ∧ rect = Grid.box o (gridColumns d.nodes.length) index size := by
  obtain ⟨m, hm, hrect⟩ := h
  have hname : m.name = name := by simpa using List.find?_some hm
  obtain ⟨index, hindex⟩ := List.mem_iff_getElem?.mp (List.mem_of_find?_eq_some hm)
  obtain ⟨n, hn, rfl⟩ := exists_of_getElem?_grid hindex
  obtain ⟨position, size, hposition, hbounds, rfl⟩ := Node.rect_eq_ok_iff.mp hrect
  obtain rfl := Option.some.inj hposition
  exact ⟨index, n, size, hn, hname, hbounds, rfl⟩

/-- On a grid whose cells hold every box, different entities are the padding apart. -/
theorem isSpread_grid {d : Diagram Rat} {o : Options}
    (hfits : ∀ n ∈ d.nodes, ∃ size, n.bounds = some size ∧ Grid.Fits o size)
    (hpadding : 0 ≤ o.paddingSize) : (d.grid o).IsSpread o.paddingSize := by
  constructor
  · intro m hm
    obtain ⟨n, hn, corner, rfl⟩ := (d.places_grid o).exists_of_mem hm
    obtain ⟨size, hsize, hsizefits⟩ := hfits n hn
    refine ⟨⟨corner.x, corner.y, size.width, size.height⟩, ?_, hsizefits.width_nonneg,
      hsizefits.height_nonneg⟩
    simp [Node.rect, hsize]
  · intro a b first second hne hfirst hsecond
    obtain ⟨i, n, size, hn, rfl, hsize, rfl⟩ := exists_box_of_hasRect_grid hfirst
    obtain ⟨j, m, other, hm, rfl, hother, rfl⟩ := exists_box_of_hasRect_grid hsecond
    have hcells : i ≠ j := by
      rintro rfl
      exact hne (congrArg (·.name) (Option.some.inj (hn.symm.trans hm)))
    obtain ⟨_, hsize', hfirstfits⟩ := hfits n (List.mem_of_getElem? hn)
    obtain ⟨_, hother', hsecondfits⟩ := hfits m (List.mem_of_getElem? hm)
    obtain rfl := Option.some.inj (hsize.symm.trans hsize')
    obtain rfl := Option.some.inj (hother.symm.trans hother')
    exact Grid.apartBy_box hcells hfirstfits hsecondfits hpadding

end Diagram

end EntityDiagram
