import EntityDiagram.Proofs.Layout.Separation
import EntityDiagram.Proofs.Scalar.Greatest

/-! Which arrangements come to their end: all grids, and all exact ones. A row of boxes goes on by
the width of a box and the padding. A measured box has the least width, which is a whole number, or
a width that is a double, so nothing has to fit but the padding and its sum with the least width. -/
namespace EntityDiagram

open Layered

variable (α : Type) [Scalar α] [ComponentLayout α] in
/-- Options with which the measured entities of every schema are arranged to the end. -/
def Options.ArrangesAll (o : Options) : Prop :=
  ∀ schema : Schema, ((Diagram.ofSchema schema : Diagram α).measure.arrange o).2 = .ok ()

theorem Options.arrangesAll_exact [ComponentLayout Rat] (o : Options) : o.ArrangesAll Rat :=
  fun _ => Diagram.result_arrange_exact _ o

/-- In layers, the padding fits a double, also together with the least width of a box. -/
def Options.RowsFit (o : Options) : Prop :=
  o.arrangement = .layered → Scalar.fits (Number.whole o.paddingSize) = true ∧
    Scalar.fits (Number.whole (140 + o.paddingSize)) = true

namespace Number

/-- A double, or the least width of a box. -/
def IsWidth (a : Number) : Prop := a = whole 140 ∨ ∃ x, a = double x

end Number

namespace Measure

open Number

theorem exists_textWidth_eq (text : String) (size : Number) (weight : Int) :
    ∃ x, textWidth text size weight = double x := by
  unfold textWidth
  obtain ⟨x, hx⟩ := exists_div_eq (if 600 ≤ weight then 58 else 52) 100
  exact ⟨_, by rw [hx, mul_double]⟩

theorem exists_monospaceWidth_eq (text : String) (size : Number) :
    ∃ x, monospaceWidth text size = double x := by
  unfold monospaceWidth
  obtain ⟨x, hx⟩ := exists_div_eq 6 10
  exact ⟨_, by rw [hx, mul_double]⟩

theorem widestRow_cases (attributes : List Attribute) : (widestRow attributes : Number) = whole 0 ∨
    ∃ x, (widestRow attributes : Number) = double x := by
  have hwidest := isGreatest_foldl isDefined_zero
    (attributes.map fun a => (monospaceWidth a.row rowSize : Number))
  rcases hwidest.attained with hzero | ⟨hmem, -⟩
  · exact .inl hzero
  · obtain ⟨a, -, ha⟩ := List.mem_map.mp hmem
    rw [widestRow, ← ha]
    exact .inr (exists_monospaceWidth_eq _ _)

/-- What is at least as great as the least width. -/
theorem isWidth_larger {a b : Number} (ha : a.IsWidth) (hleast : ¬a < whole 24)
    (hb : b = whole 24 ∨ ∃ x, b = double x) : (Scalar.larger a b).IsWidth := by
  unfold Scalar.larger
  split
  · rename_i hlt
    rcases hb with rfl | hb
    · exact absurd hlt hleast
    · exact .inr hb
  · exact ha

/-- The width of a box is a double where it is not the least one. -/
theorem isWidth_entity (e : Entity) : (entity e : Size Number).width.IsWidth := by
  obtain ⟨x, htitle⟩ := exists_textWidth_eq e.name titleSize titleWeight
  have hdefined : (minimalWidth : Number).IsDefined := Reading.noConfusion
  have hheader := larger_cases (b := textWidth e.name titleSize titleWeight + sidePadding * 2)
    hdefined
  unfold entity
  simp only
  apply isWidth_larger
  · rcases hheader with ⟨-, heq⟩ | ⟨-, heq⟩ <;> rw [heq]
    · exact .inr ⟨_, by rw [htitle, double_add]⟩
    · exact .inl rfl
  · have hrows : ¬(minimalWidth : Number) < whole 24 := by decide
    rcases hheader with ⟨hlt, heq⟩ | ⟨-, heq⟩ <;> rw [heq]
    · exact fun hnarrow => hrows (lt_of_atMost_of_lt (.inl hlt) hnarrow)
    · exact hrows
  · rcases widestRow_cases e.attributes with hrow | ⟨y, hrow⟩ <;> rw [hrow]
    · exact .inl rfl
    · exact .inr ⟨_, double_add _ _⟩

end Measure

namespace Layered

open Number

/-- A place that is a double is followed by one. -/
theorem exists_nextPlace_eq {padding : Int} (hpadding : Scalar.fits (whole padding) = true)
    (hleast : Scalar.fits (whole (140 + padding)) = true) (x : Float) {width : Number}
    (hwidth : width.IsWidth) :
    ∃ y, nextPlace (whole padding) (double x) width = .ok (double y) := by
  unfold nextPlace
  rcases hwidth with rfl | ⟨w, rfl⟩
  · have hstep : Scalar.sum (whole 140) (whole padding) = .ok (whole (140 + padding)) := rfl
    rw [hstep]
    exact ⟨_, Scalar.sum_eq_ok_iff.mpr ⟨hleast, rfl⟩⟩
  · have hstep : Scalar.sum (double w) (whole padding) = .ok (double (w + Float.ofInt padding)) :=
      Scalar.sum_eq_ok_iff.mpr ⟨hpadding, rfl⟩
    rw [hstep]
    exact ⟨_, rfl⟩

/-- After a box of the least width there may be no place. -/
theorem nextPlace_least {padding : Int} (hleast : Scalar.fits (whole (140 + padding)) = false)
    (x : Float) : nextPlace (whole padding) (double x) (whole 140) = .error .tooLarge := by
  have hstep : Scalar.sum (whole 140) (whole padding) = .ok (whole (140 + padding)) := rfl
  have hcombines : Scalar.combines (double x) (whole (140 + padding)) = false := hleast
  unfold nextPlace
  rw [hstep]
  change Scalar.sum (double x) (whole (140 + padding)) = _
  rw [Scalar.sum, hcombines]
  rfl

theorem result_row_number {padding : Int} (hpadding : Scalar.fits (whole padding) = true)
    (hleast : Scalar.fits (whole (140 + padding)) = true) (x : Float) (y : Number)
    {boxes : List (String × Size Number)} (hboxes : ∀ box ∈ boxes, box.2.width.IsWidth) :
    (row (whole padding) (double x) y boxes).result = .ok () := by
  induction boxes generalizing x with
  | nil => rfl
  | cons box rest ih =>
    obtain ⟨next, hnext⟩ := exists_nextPlace_eq hpadding hleast x (hboxes box List.mem_cons_self)
    rw [row, hnext]
    exact ih next fun other hother => hboxes other (List.mem_cons_of_mem _ hother)

end Layered

namespace Diagram

open Number

/-- A measured entity is laid out in the size that it has. -/
theorem exists_layoutSize_measure {α : Type} [Scalar α] {d : Diagram α} (o : Options)
    {name : String} (h : name ∈ d.measure.nodes.map (·.name)) :
    ∃ e, d.measure.layoutSize o name = Measure.entity e := by
  obtain ⟨n, hn, rfl⟩ := List.mem_map.mp h
  obtain ⟨m, hm⟩ : ∃ m, d.measure.nodes.reverse.find? (·.name = n.name) = some m := by
    rw [← Option.isSome_iff_exists, List.find?_isSome]
    exact ⟨n, List.mem_reverse.mpr hn, by simp⟩
  obtain ⟨k, -, rfl⟩ := List.mem_map.mp (List.mem_reverse.mp (List.mem_of_find?_eq_some hm))
  exact ⟨k.toEntity, by rw [layoutSize, hm]; rfl⟩

variable {o : Options}

/-- Where rows fit, whatever centers the components are given. -/
theorem result_packedCorners_number (d : Diagram Number)
    (hpadding : Scalar.fits (whole o.paddingSize) = true)
    (hleast : Scalar.fits (whole (140 + o.paddingSize)) = true)
    (centers : Network String → List (Point Number)) :
    (d.measure.packedCorners o centers).result = .ok () := by
  have hmargin : Scalar.measured (whole o.paddingSize) =
      .ok (double (Float.ofInt o.paddingSize)) := if_pos hpadding
  refine result_pack hmargin _ ?_
  intro y
  apply result_row_number hpadding hleast
  intro box hbox
  obtain ⟨name, hname, rfl⟩ := List.mem_map.mp hbox
  obtain ⟨e, he⟩ := exists_layoutSize_measure o (d.measure.singles_subset hname)
  rw [he]
  exact Measure.isWidth_entity e

/-- Two entities that nothing joins to another. -/
def loners : Schema := ⟨[⟨"A", [], []⟩, ⟨"B", [], []⟩], [], []⟩

theorem packedCorners_loners (centers : Network String → List (Point Number)) :
    (ofSchema loners).measure.packedCorners o centers =
      pack (whole o.paddingSize) [] [("A", ⟨140, 54⟩), ("B", ⟨140, 54⟩)] := by
  have hjoined : (ofSchema loners : Diagram Number).measure.network.components.filter
      (·.vertices.length ≠ 1) = [] := by decide +kernel
  have hsingles : (ofSchema loners : Diagram Number).measure.singles = ["A", "B"] := by
    have hvertices : ((ofSchema loners : Diagram Number).measure.network.components.filter
        (·.vertices.length = 1)).flatMap (·.vertices) = ["A", "B"] := by decide +kernel
    rw [singles, hvertices]
    exact List.mergeSort_of_pairwise (by decide +kernel)
  rw [packedCorners, hjoined, hsingles]
  rfl

/-- Where rows do not fit, the row ends before the second box, or there is none. -/
theorem pack_loners {padding : Int} (h : ¬(Scalar.fits (whole padding) = true ∧
      Scalar.fits (whole (140 + padding)) = true)) : ∃ corners,
    pack (whole padding) [] [("A", ⟨140, 54⟩), ("B", ⟨140, 54⟩)] = ⟨corners, .error .tooLarge⟩ ∧
      ∀ corner ∈ corners, corner.1 = "A" := by
  cases hpadding : Scalar.fits (whole padding) with
  | false =>
    have hmargin : Scalar.measured (whole padding) = .error .tooLarge := by
      rw [Scalar.measured, hpadding]
      rfl
    refine ⟨[], ?_, by simp⟩
    rw [pack, hmargin]
    rfl
  | true =>
    have hleast : Scalar.fits (whole (140 + padding)) = false := by simpa [hpadding] using h
    have hmargin : Scalar.measured (whole padding) = .ok (double (Float.ofInt padding)) :=
      if_pos hpadding
    have hnext := nextPlace_least hleast (Float.ofInt padding)
    refine ⟨[("A", ⟨double (Float.ofInt padding), double (Float.ofInt padding)⟩)], ?_, by simp⟩
    rw [pack, hmargin]
    simp only [row, show (140 : Number) = whole 140 from rfl, hnext]
    rfl

variable [ComponentLayout Number]

/-- Where rows do not fit, the second of two entities that nothing joins gets no place. -/
theorem arrange_loners (h : ¬o.RowsFit) :
    ((ofSchema loners : Diagram Number).measure.arrange o).2 = .error .tooLarge ∧
      ∃ n ∈ ((ofSchema loners : Diagram Number).measure.arrange o).1.nodes, n.position = none := by
  obtain ⟨hlayered, hrows⟩ := Classical.not_imp.mp h
  obtain ⟨corners, hpack, hnames⟩ := pack_loners hrows
  have hdistinct : ((ofSchema loners : Diagram Number).measure.nodes.map (·.name)).Nodup := by
    decide
  unfold arrange
  rw [hlayered]
  simp only [layered, layeredBy, packedCorners_loners, hpack, nodes_moveTo hdistinct,
    List.mem_map, exists_exists_and_eq_and, true_and]
  refine ⟨⟨⟨"B", [], []⟩, none, some ⟨140, 54⟩⟩, by decide +kernel, ?_⟩
  have hlookup : corners.reverse.lookup "B" = none := by
    rw [List.lookup_eq_none_iff]
    intro corner hcorner
    rw [hnames corner (List.mem_reverse.mp hcorner)]
    decide
  rw [hlookup]
  rfl

end Diagram

/-- Every schema is arranged to the end exactly where rows fit. -/
theorem Options.arrangesAll_number_iff [ComponentLayout Number] {o : Options} :
    o.ArrangesAll Number ↔ o.RowsFit := by
  constructor
  · intro h
    by_contra hrows
    have hfault := (Diagram.arrange_loners hrows).1
    rw [h Diagram.loners] at hfault
    contradiction
  · intro h schema
    unfold Diagram.arrange
    split
    · rfl
    · rename_i hlayered
      obtain ⟨hpadding, hleast⟩ := h hlayered
      exact Diagram.result_packedCorners_number _ hpadding hleast _

end EntityDiagram
