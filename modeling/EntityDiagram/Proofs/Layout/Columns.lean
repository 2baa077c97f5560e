import EntityDiagram.Proofs.Layout.Packing
import EntityDiagram.Proofs.Scalar.Exact
import Mathlib.Tactic.Linarith
import Mathlib.Tactic.Ring

/-! How far apart a packing sets boxes, in exact numbers. Every component keeps to a column of its
own, the columns follow each other to the right, and the row of single boxes stays below all of
them, wherever boxes stand inside their component. -/
namespace EntityDiagram

namespace Rect

/-- The first rectangle ends by a gap before the second begins. -/
def LeftOf (gap : Rat) (r s : Rect Rat) : Prop := r.right + gap ≤ s.x

/-- The first rectangle ends by a gap above the second. -/
def Above (gap : Rat) (r s : Rect Rat) : Prop := r.bottom + gap ≤ s.y

/-- One of two rectangles is a gap away from the other, to one of the four sides. -/
def ApartBy (gap : Rat) (r s : Rect Rat) : Prop :=
  (LeftOf gap r s ∨ LeftOf gap s r) ∨ Above gap r s ∨ Above gap s r

theorem ApartBy.symm {gap : Rat} {r s : Rect Rat} (h : ApartBy gap r s) : ApartBy gap s r :=
  h.imp Or.symm Or.symm

def Covers (r : Rect Rat) (p : Point Rat) : Prop :=
  (r.x ≤ p.x ∧ p.x < r.right) ∧ r.y ≤ p.y ∧ p.y < r.bottom

theorem ApartBy.disjoint {gap : Rat} {r s : Rect Rat} (h : ApartBy gap r s) (hgap : 0 ≤ gap)
    {p : Point Rat} (hr : r.Covers p) : ¬ s.Covers p := by
  rintro ⟨⟨hleft, hright⟩, htop, hbottom⟩
  obtain ⟨⟨hrleft, hrright⟩, hrtop, hrbottom⟩ := hr
  rcases h with (h | h) | h | h
  all_goals
    simp only [LeftOf, Above] at h
    linarith

theorem right_exact (r : Rect Rat) : r.right = r.x + r.width := rfl

theorem bottom_exact (r : Rect Rat) : r.bottom = r.y + r.height := rfl

end Rect

namespace Layered

theorem Placed.right_exact (p : Placed Rat) : p.right = p.left + p.size.width := by
  have hright : p.right = p.center.x + p.size.width / 2 := rfl
  have hleft : p.left = p.center.x - p.size.width / 2 := rfl
  rw [hright, hleft]
  ring

theorem Placed.bottom_exact (p : Placed Rat) : p.bottom = p.top + p.size.height := by
  have hbottom : p.bottom = p.center.y + p.size.height / 2 := rfl
  have htop : p.top = p.center.y - p.size.height / 2 := rfl
  rw [hbottom, htop]
  ring

/-- The sizes of boxes are known by their names, and none is negative. -/
structure Sized (size : String → Size Rat) (boxes : List (Placed Rat)) : Prop where
  size_eq : ∀ p ∈ boxes, p.size = size p.name
  width_nonneg : ∀ p ∈ boxes, 0 ≤ p.size.width
  height_nonneg : ∀ p ∈ boxes, 0 ≤ p.size.height

/-- A box of a component stays inside the space that the component takes. -/
theorem within_extent {component : List (Placed Rat)} {p : Placed Rat} (hp : p ∈ component) :
    (0 ≤ p.left - Scalar.leastOf (component.map Placed.left) ∧
        p.left - Scalar.leastOf (component.map Placed.left) + p.size.width ≤
          (extent component).width) ∧
      0 ≤ p.top - Scalar.leastOf (component.map Placed.top) ∧
        p.top - Scalar.leastOf (component.map Placed.top) + p.size.height ≤
          (extent component).height := by
  have hextent : extent component = ⟨Scalar.greatestOf (component.map Placed.right) -
      Scalar.leastOf (component.map Placed.left), Scalar.greatestOf (component.map Placed.bottom) -
      Scalar.leastOf (component.map Placed.top)⟩ := rfl
  have hleft := Scalar.leastOf_le (List.mem_map_of_mem (f := Placed.left) hp)
  have hright := Scalar.le_greatestOf (List.mem_map_of_mem (f := Placed.right) hp)
  have htop := Scalar.leastOf_le (List.mem_map_of_mem (f := Placed.top) hp)
  have hbottom := Scalar.le_greatestOf (List.mem_map_of_mem (f := Placed.bottom) hp)
  rw [Placed.right_exact] at hright
  rw [Placed.bottom_exact] at hbottom
  simp only [hextent]
  refine ⟨⟨?_, ?_⟩, ?_, ?_⟩ <;> linarith

variable {size : String → Size Rat}

theorem extent_nonneg {component : List (Placed Rat)} (h : Sized size component) :
    0 ≤ (extent component).width ∧ 0 ≤ (extent component).height := by
  cases component with
  | nil => exact ⟨le_of_eq (sub_self (0 : Rat)).symm, le_of_eq (sub_self (0 : Rat)).symm⟩
  | cons p rest =>
    obtain ⟨⟨hleft, hright⟩, htop, hbottom⟩ :=
      within_extent (List.mem_cons_self (a := p) (l := rest))
    have hwidth := h.width_nonneg p List.mem_cons_self
    have hheight := h.height_nonneg p List.mem_cons_self
    constructor <;> linarith

variable (size) in
/-- The box at a corner. -/
def boxAt (corner : String × Point Rat) : Rect Rat :=
  ⟨corner.2.x, corner.2.y, (size corner.1).width, (size corner.1).height⟩

/-- Moving a component shifts all of its boxes alike. -/
theorem exists_shift_moveTo (x y : Rat) (component : List (Placed Rat)) : ∃ left top : Rat,
    ∀ p ∈ component, (p.name, ⟨p.left + left, p.top + top⟩) ∈ moveTo x y component := by
  refine ⟨x - Scalar.leastOf (component.map Placed.left),
    y - Scalar.leastOf (component.map Placed.top), ?_⟩
  intro p hp
  have hmoved : (p.name, ⟨p.left - Scalar.leastOf (component.map Placed.left) + x,
      p.top - Scalar.leastOf (component.map Placed.top) + y⟩) ∈ moveTo x y component :=
    List.mem_map_of_mem hp
  convert hmoved using 3 <;> ring

/-- A component that is moved to a point takes its space from there. -/
theorem within_moveTo {component : List (Placed Rat)} (h : Sized size component) {x y : Rat}
    {corner : String × Point Rat} (hcorner : corner ∈ moveTo x y component) :
    (x ≤ (boxAt size corner).x ∧ (boxAt size corner).right ≤ x + (extent component).width) ∧
      y ≤ (boxAt size corner).y ∧ (boxAt size corner).bottom ≤ y + (extent component).height := by
  obtain ⟨p, hp, rfl⟩ := List.mem_map.mp hcorner
  obtain ⟨⟨hleft, hright⟩, htop, hbottom⟩ := within_extent hp
  rw [Rect.right_exact, Rect.bottom_exact, boxAt, ← h.size_eq p hp]
  refine ⟨⟨?_, ?_⟩, ?_, ?_⟩ <;> dsimp only <;> linarith

section

variable {padding : Rat} {components : List (List (Placed Rat))}

theorem packFrom_cons (x bottom : Rat) (component : List (Placed Rat))
    (rest : List (List (Placed Rat))) : packFrom padding x bottom (component :: rest) =
      ⟨moveTo x padding component ++
          (packFrom padding (x + ((extent component).width + padding))
            (max bottom (padding + (extent component).height)) rest).corners,
        (packFrom padding (x + ((extent component).width + padding))
          (max bottom (padding + (extent component).height)) rest).bottom⟩ := by
  rw [← Scalar.larger_exact]
  rfl

theorem le_bottom_packFrom (x bottom : Rat) :
    bottom ≤ (packFrom padding x bottom components).bottom := by
  induction components generalizing x bottom with
  | nil => exact le_refl bottom
  | cons component rest ih =>
    rw [packFrom_cons]
    exact (le_max_left _ _).trans (ih _ _)

/-- Packed components stay to the right of where the packing begins, below the padding and above
the bottom of the packing. -/
theorem within_packFrom (h : ∀ c ∈ components, Sized size c) (hpadding : 0 ≤ padding)
    {x bottom : Rat} {corner : String × Point Rat}
    (hcorner : corner ∈ (packFrom padding x bottom components).corners) :
    x ≤ (boxAt size corner).x ∧ padding ≤ (boxAt size corner).y ∧
      (boxAt size corner).bottom ≤ (packFrom padding x bottom components).bottom := by
  induction components generalizing x bottom with
  | nil => contradiction
  | cons component rest ih =>
    rw [packFrom_cons] at hcorner ⊢
    rcases List.mem_append.mp hcorner with hcorner | hcorner
    · obtain ⟨⟨hleft, -⟩, htop, hbottom⟩ :=
        within_moveTo (h component List.mem_cons_self) hcorner
      exact ⟨hleft, htop, hbottom.trans ((le_max_right _ _).trans (le_bottom_packFrom _ _))⟩
    · obtain ⟨hleft, htop, hbottom⟩ := ih (fun c hc => h c (List.mem_cons_of_mem _ hc)) hcorner
      have hwidth := (extent_nonneg (h component List.mem_cons_self)).1
      exact ⟨by linarith, htop, hbottom⟩

/-- Boxes of different components stand in different columns. -/
theorem leftOf_of_mem_packFrom (h : ∀ c ∈ components, Sized size c) (hpadding : 0 ≤ padding)
    {x bottom : Rat} {e f : String × Point Rat}
    (he : e ∈ (packFrom padding x bottom components).corners)
    (hf : f ∈ (packFrom padding x bottom components).corners) :
    (∃ c ∈ components, e.1 ∈ c.map (·.name) ∧ f.1 ∈ c.map (·.name)) ∨
      Rect.LeftOf padding (boxAt size e) (boxAt size f) ∨
        Rect.LeftOf padding (boxAt size f) (boxAt size e) := by
  induction components generalizing x bottom with
  | nil => contradiction
  | cons component rest ih =>
    have hhead := h component List.mem_cons_self
    have htail : ∀ c ∈ rest, Sized size c := fun c hc => h c (List.mem_cons_of_mem _ hc)
    rw [packFrom_cons] at he hf
    rcases List.mem_append.mp he with he | he <;> rcases List.mem_append.mp hf with hf | hf
    · refine .inl ⟨component, List.mem_cons_self, ?_, ?_⟩
      · exact map_fst_moveTo x padding component ▸ List.mem_map_of_mem he
      · exact map_fst_moveTo x padding component ▸ List.mem_map_of_mem hf
    · have hright := (within_moveTo hhead he).1.2
      have hleft := (within_packFrom htail hpadding hf).1
      exact .inr (.inl (by rw [Rect.LeftOf]; linarith))
    · have hright := (within_moveTo hhead hf).1.2
      have hleft := (within_packFrom htail hpadding he).1
      exact .inr (.inr (by rw [Rect.LeftOf]; linarith))
    · rcases ih htail he hf with ⟨c, hc, hnames⟩ | hleft
      · exact .inl ⟨c, List.mem_cons_of_mem _ hc, hnames⟩
      · exact .inr hleft

/-- An exact row always goes on. -/
theorem corners_row_cons (x y : Rat) (name : String) (names : List String) :
    (row padding x y ((name :: names).map fun name => (name, size name))).corners =
      (name, ⟨x, y⟩) :: (row padding (x + ((size name).width + padding)) y
        (names.map fun name => (name, size name))).corners := rfl

@[simp] theorem result_row_exact (padding x y : Rat) (boxes : List (String × Size Rat)) :
    (row padding x y boxes).result = .ok () := by
  induction boxes generalizing x with
  | nil => rfl
  | cons box rest ih => exact ih (x + (box.2.width + padding))

theorem within_row {names : List String} (h : ∀ name ∈ names, 0 ≤ (size name).width)
    (hpadding : 0 ≤ padding) {x y : Rat} {corner : String × Point Rat}
    (hcorner : corner ∈ (row padding x y (names.map fun name => (name, size name))).corners) :
    x ≤ corner.2.x ∧ corner.2.y = y := by
  induction names generalizing x with
  | nil => contradiction
  | cons name rest ih =>
    rw [corners_row_cons] at hcorner
    rcases List.mem_cons.mp hcorner with rfl | hcorner
    · exact ⟨le_refl x, rfl⟩
    · obtain ⟨hx, hy⟩ := ih (fun other hother => h other (List.mem_cons_of_mem _ hother)) hcorner
      have hwidth := h name List.mem_cons_self
      exact ⟨by linarith, hy⟩

/-- A row goes from left to right. -/
theorem pairwise_row {names : List String} (h : ∀ name ∈ names, 0 ≤ (size name).width)
    (hpadding : 0 ≤ padding) (x y : Rat) :
    (row padding x y (names.map fun name => (name, size name))).corners.Pairwise fun e f =>
      Rect.LeftOf padding (boxAt size e) (boxAt size f) := by
  induction names generalizing x with
  | nil => exact .nil
  | cons name rest ih =>
    have hrest : ∀ other ∈ rest, 0 ≤ (size other).width :=
      fun other hother => h other (List.mem_cons_of_mem _ hother)
    rw [corners_row_cons, List.pairwise_cons]
    refine ⟨?_, ih hrest _⟩
    intro corner hcorner
    have hx := (within_row hrest hpadding hcorner).1
    rw [Rect.LeftOf, Rect.right_exact, boxAt, boxAt]
    dsimp only
    linarith

end

/-- Columns of components, side by side, and a row below all of them. -/
structure Packing (size : String → Size Rat) (padding : Rat) (components : List (List (Placed Rat)))
    (names : List String) (columns row : List (String × Point Rat)) : Prop where
  map_fst_columns : columns.map (·.1) = components.flatMap fun c => c.map (·.name)
  map_fst_row : row.map (·.1) = names
  inside : ∀ e ∈ columns ++ row, padding ≤ e.2.x ∧ padding ≤ e.2.y
  columns_apart : ∀ e ∈ columns, ∀ f ∈ columns,
    (∃ c ∈ components, e.1 ∈ c.map (·.name) ∧ f.1 ∈ c.map (·.name)) ∨
      Rect.LeftOf padding (boxAt size e) (boxAt size f) ∨
        Rect.LeftOf padding (boxAt size f) (boxAt size e)
  row_pairwise : row.Pairwise fun e f =>
    e.2.y = f.2.y ∧ Rect.LeftOf padding (boxAt size e) (boxAt size f)
  row_below : ∀ e ∈ columns, ∀ f ∈ row, Rect.Above padding (boxAt size e) (boxAt size f)

/-- Exact boxes always find their corners. -/
theorem pack_exact (padding : Rat) (components : List (List (Placed Rat)))
    (singles : List (String × Size Rat)) :
    let packed := packFrom padding padding padding components
    let y : Rat := if components.isEmpty then padding else packed.bottom + padding
    pack padding components singles =
      ⟨packed.corners ++ (row padding padding y singles).corners, .ok ()⟩ := by
  intro packed y
  unfold pack
  split
  · rename_i hempty
    obtain ⟨hcomponents, hsingles⟩ := Bool.and_eq_true_iff.mp hempty
    obtain rfl := List.isEmpty_iff.mp hcomponents
    obtain rfl := List.isEmpty_iff.mp hsingles
    rfl
  · rw [← result_row_exact padding padding y singles]
    rfl

theorem exists_packing {padding : Rat} {components : List (List (Placed Rat))}
    {names : List String} (hpadding : 0 ≤ padding) (hcomponents : ∀ c ∈ components, Sized size c)
    (hnames : ∀ name ∈ names, 0 ≤ (size name).width) : ∃ columns row,
      pack padding components (names.map fun name => (name, size name)) =
          ⟨columns ++ row, .ok ()⟩ ∧
        Packing size padding components names columns row := by
  let packed := packFrom padding padding padding components
  let y : Rat := if components.isEmpty then padding else packed.bottom + padding
  have hbottom : padding ≤ packed.bottom := le_bottom_packFrom _ _
  have hy : padding ≤ y := by
    dsimp only [y]
    split_ifs <;> linarith
  refine ⟨packed.corners, (row padding padding y (names.map fun name => (name, size name))).corners,
    pack_exact _ _ _, map_fst_packFrom _ _ _ _, ?_, ?_, ?_, ?_, ?_⟩
  · rw [map_fst_row (result_row_exact _ _ _ _), List.map_map]
    exact List.map_id' names
  · intro e he
    rcases List.mem_append.mp he with he | he
    · obtain ⟨hleft, htop, -⟩ := within_packFrom hcomponents hpadding he
      exact ⟨hleft, htop⟩
    · obtain ⟨hleft, htop⟩ := within_row hnames hpadding he
      exact ⟨hleft, htop.symm ▸ hy⟩
  · intro e he f hf
    exact leftOf_of_mem_packFrom hcomponents hpadding he hf
  · refine (pairwise_row hnames hpadding padding y).imp_of_mem ?_
    intro e f he hf hleft
    have hey := (within_row hnames hpadding he).2
    have hfy := (within_row hnames hpadding hf).2
    exact ⟨hey.trans hfy.symm, hleft⟩
  · intro e he f hf
    have hebottom := (within_packFrom hcomponents hpadding he).2.2
    have hfy := (within_row hnames hpadding hf).2
    have hsome : components.isEmpty = false := by
      cases components with
      | nil => contradiction
      | cons c rest => rfl
    rw [Rect.Above]
    change _ ≤ f.2.y
    rw [hfy]
    dsimp only [y]
    rw [hsome, if_neg Bool.false_ne_true]
    linarith

end Layered

end EntityDiagram
