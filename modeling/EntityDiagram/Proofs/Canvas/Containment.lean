import EntityDiagram.Proofs.Canvas.Size
import EntityDiagram.Proofs.Layout.Separation
import EntityDiagram.Proofs.Session.GridDrawing
import EntityDiagram.Proofs.Session.Shown
import EntityDiagram.Render

/-! What lies in a canvas, in exact numbers. No arrangement with a padding places an entity to the
left of the origin or above it, and the canvas reaches beyond every box. -/
namespace EntityDiagram

/-- A rectangle in a canvas that begins at the origin, with a margin to its right and below it. -/
structure Rect.LiesIn (r : Rect Rat) (canvas : Size Rat) (margin : Rat) : Prop where
  left : 0 ≤ r.x
  top : 0 ≤ r.y
  right : r.right + margin ≤ canvas.width
  bottom : r.bottom + margin ≤ canvas.height

theorem le_greatest {a : Rat} {numbers : List Rat} (h : a ∈ numbers) : a ≤ greatest numbers :=
  Scalar.le_greatestOf (List.mem_cons_of_mem 0 h)

/-- In exact arithmetic every drawing has a canvas. A box that is not left of the origin and not
above it lies in it. -/
theorem exists_canvasSize_exact (primitives : List (Primitive Rat)) (padding : Rat) :
    ∃ canvas, canvasSize primitives padding = .ok canvas ∧ ∀ b, .box b ∈ primitives →
      0 ≤ b.rect.x → 0 ≤ b.rect.y → b.rect.LiesIn canvas padding := by
  obtain ⟨points, hextents, hsize⟩ := @exists_canvasSize_eq _ _ primitives
    fun _ _ _ _ _ => rfl
  refine ⟨_, hsize padding, ?_⟩
  intro b hb hx hy
  have hextends (coordinate : Point Rat → Rat) :
      coordinate ⟨b.rect.right, b.rect.bottom⟩ ∈ points.map coordinate := by
    have hmem : coordinate ⟨b.rect.right, b.rect.bottom⟩ ∈ extents coordinate primitives :=
      ⟨_, hb, _, .box, rfl⟩
    rwa [← hextents] at hmem
  exact ⟨hx, hy, add_le_add_left (le_greatest (hextends (·.x))) padding,
    add_le_add_left (le_greatest (hextends (·.y))) padding⟩

/-- An entity at a corner that is at least the padding away from the left and from the top. -/
def Node.IsInside (n : Node Rat) (padding : Rat) : Prop :=
  ∃ corner, n.position = some corner ∧ padding ≤ corner.x ∧ padding ≤ corner.y

theorem Grid.le_corner {o : Options} (hpadding : 0 ≤ o.paddingSize) (hwidth : 0 ≤ o.cellWidthSize)
    (hheight : 0 ≤ o.cellHeightSize) (columns index : Nat) :
    o.paddingSize ≤ (corner o columns index).x ∧ o.paddingSize ≤ (corner o columns index).y :=
  ⟨Int.le_add_of_nonneg_right (Int.mul_nonneg (Int.natCast_nonneg _) (by omega)),
    Int.le_add_of_nonneg_right (Int.mul_nonneg (Int.natCast_nonneg _) (by omega))⟩

namespace Diagram

variable {d : Diagram Rat} {o : Options}

theorem isInside_grid (hpadding : 0 ≤ o.paddingSize) (hwidth : 0 ≤ o.cellWidthSize)
    (hheight : 0 ≤ o.cellHeightSize) : ∀ n ∈ (d.grid o).nodes, n.IsInside o.paddingSize := by
  intro n hn
  obtain ⟨index, hindex⟩ := List.mem_iff_getElem?.mp hn
  obtain ⟨m, -, rfl⟩ := exists_of_getElem?_grid hindex
  obtain ⟨hx, hy⟩ := Grid.le_corner hpadding hwidth hheight (gridColumns d.nodes.length) index
  exact ⟨_, rfl, Rat.intCast_le_intCast.mpr hx, Rat.intCast_le_intCast.mpr hy⟩

variable [Layered.ComponentLayout Rat]

/-- In layers the sizes of boxes matter, but only that none is negative. -/
theorem isInside_layered (names : (d.nodes.map (·.name)).Nodup) (hpadding : 0 ≤ o.paddingSize)
    (hsizes : ∀ n ∈ d.nodes, 0 ≤ (n.layoutSize o).width ∧ 0 ≤ (n.layoutSize o).height) :
    ∀ n ∈ (d.layered o).1.nodes, n.IsInside o.paddingSize := by
  have hcenters := Layered.ComponentLayout.length_centersOf o.gaps (d.layoutSize o)
  obtain ⟨corner, -, hnodes, -, hseparates⟩ :=
    exists_corner_layeredBy names hcenters hpadding hsizes
  intro m hm
  have hplaced : m ∈ (d.layeredBy o _).1.nodes := hm
  obtain ⟨n, hn, rfl⟩ := List.mem_map.mp (hnodes ▸ hplaced)
  exact ⟨_, rfl, hseparates.inside n hn⟩

/-- Every arrangement of measured entities keeps the padding free. -/
theorem isInside_arrange (names : (d.nodes.map (·.name)).Nodup)
    (measured : ∀ n ∈ d.nodes, n.bounds = some (Measure.entity n.toEntity))
    (hpadding : 0 ≤ o.paddingSize) (hwidth : 0 ≤ o.cellWidthSize)
    (hheight : 0 ≤ o.cellHeightSize) : ∀ n ∈ (d.arrange o).1.nodes, n.IsInside o.paddingSize := by
  unfold arrange
  split
  · exact isInside_grid hpadding hwidth hheight
  · refine isInside_layered names hpadding ?_
    intro n hn
    obtain ⟨hw, hh⟩ := Measure.le_entity n.toEntity
    rw [Node.layoutSize, measured n hn, Option.getD_some]
    exact ⟨by linarith, by linarith⟩

end Diagram

/-- Every box of a drawing with the boxes of all entities is that of one. -/
theorem Drawing.HasBoxesOf.exists_node {α : Type} {drawing : Drawing α} {nodes : List (Node α)}
    (h : drawing.HasBoxesOf nodes) {b : Box α} (hb : .box b ∈ drawing.primitives) :
    ∃ n ∈ nodes, n.rect = .ok b.rect := by
  obtain ⟨rect, rest, hrect, hprimitives, hrest⟩ := h
  rw [hprimitives, List.mem_append] at hb
  rcases hb with hb | hb
  · obtain ⟨n, hn, hbox⟩ := List.mem_map.mp hb
    obtain rfl := Primitive.box.inj hbox
    exact ⟨n, hn, hrect n hn⟩
  · exact absurd (hrest _ hb) (by simp [Primitive.isBox])

namespace Session

variable [Layered.ComponentLayout Rat]

/-- The entities of a schema that has just been opened keep the padding free. -/
theorem isInside_openSchema (s : Session Rat) {schema : Schema} (valid : schema.violation? = none)
    (hpadding : 0 ≤ s.options.paddingSize) (hwidth : 0 ≤ s.options.cellWidthSize)
    (hheight : 0 ≤ s.options.cellHeightSize) :
    ∀ n ∈ (s.openSchema schema).1.diagram.nodes, n.IsInside s.options.paddingSize := by
  obtain ⟨names, -⟩ := schema.violation?_eq_none_iff.mp valid
  have hnames : ((Diagram.ofSchema (α := Rat) schema).measure.nodes.map (·.name)).Nodup := by
    rw [← Diagram.map_name_entities]
    simpa using names.entities
  rw [openSchema, fst_autoLayout]
  exact Diagram.isInside_arrange hnames (by simp [Diagram.measure]) hpadding hwidth hheight

/-- A schema that is opened is drawn. -/
theorem exists_openSchema_eq_ok_exact (s : Session Rat) (schema : Schema) :
    ∃ drawing, (s.openSchema schema).2 = .ok drawing ∧
      (s.openSchema schema).1.diagram.draw = .ok drawing := by
  have hresult : ∃ drawing, (s.openSchema schema).2 = .ok drawing := by
    let opened := { s with diagram := (Diagram.ofSchema schema).measure, drag := none }
    rcases opened.autoLayout_cases with ⟨-, hopen⟩ | ⟨fault, hfault, -⟩
    · rw [openSchema, hopen]
      obtain ⟨drawing, hdraw⟩ := Diagram.exists_draw_eq_ok_exact
        ((Diagram.ofSchema schema).measure.arrange s.options).1
      exact ⟨drawing, mapError_eq_ok_iff.mpr hdraw⟩
    · rw [Diagram.result_arrange_exact] at hfault
      contradiction
  obtain ⟨drawing, hdrawing⟩ := hresult
  exact ⟨drawing, hdrawing, draw_of_autoLayout_eq hdrawing⟩

/-- A drawing of a schema that has just been opened has a box for every entity, and a canvas around
it contains all boxes. -/
theorem liesIn_openSchema (s : Session Rat) {schema : Schema} (valid : schema.violation? = none)
    (hpadding : 0 ≤ s.options.paddingSize) (hwidth : 0 ≤ s.options.cellWidthSize)
    (hheight : 0 ≤ s.options.cellHeightSize) (margin : Rat) :
    ∃ drawing canvas, (s.openSchema schema).2 = .ok drawing ∧
      canvasSize drawing.primitives margin = .ok canvas ∧
      drawing.HasBoxesOf (s.openSchema schema).1.diagram.nodes ∧
      ∀ b, .box b ∈ drawing.primitives → b.rect.LiesIn canvas margin := by
  obtain ⟨drawing, hdrawing, hdraw⟩ := s.exists_openSchema_eq_ok_exact schema
  obtain ⟨canvas, hcanvas, hlies⟩ := exists_canvasSize_exact drawing.primitives margin
  have hboxes := (Shows.openSchema s valid (Options.arrangesAll_exact _)).hasBoxesOf hdraw
  refine ⟨drawing, canvas, hdrawing, hcanvas, hboxes, ?_⟩
  intro b hb
  obtain ⟨n, hn, hrect⟩ := hboxes.exists_node hb
  obtain ⟨corner, hcorner, hx, hy⟩ := s.isInside_openSchema valid hpadding hwidth hheight n hn
  obtain ⟨position, size, hposition, -, hplace⟩ := Node.rect_eq_ok_iff.mp hrect
  obtain rfl := Option.some.inj (hcorner.symm.trans hposition)
  have hnonneg : (0 : Rat) ≤ s.options.paddingSize := by exact_mod_cast hpadding
  exact hlies b hb (by rw [hplace]; exact hnonneg.trans hx) (by rw [hplace]; exact hnonneg.trans hy)

end Session

/-- A source is rendered as the drawing that a session opens with, on its canvas. -/
theorem render_exact_eq_ok [Layered.ComponentLayout Rat] {source : String}
    {document : Source.Document} {o : Options} (hparse : Source.parse source = .ok document)
    {drawing : Drawing Rat} {canvas : Size Rat}
    (hdrawing : ((Session.create Diagram.empty o).openSchema document.schema).2 = .ok drawing)
    (hcanvas : canvasSize drawing.primitives canvasPadding = .ok canvas) :
    render Rat source o = .ok
      { svg := svg drawing.primitives canvas o.fontName o.transparent
        notices := document.duplicates.map (·.message) ++ skippedNotices drawing.errors } := by
  have hwritten : writeSvg drawing.primitives canvas o.fontName o.transparent =
      .ok (svg drawing.primitives canvas o.fontName o.transparent) :=
    if_pos (List.all_eq_true.mpr fun _ _ => rfl)
  rw [render, hparse]
  refine bind_eq_ok_iff.mpr ⟨document, rfl, bind_eq_ok_iff.mpr ⟨drawing, hdrawing, ?_⟩⟩
  rw [hcanvas]
  exact bind_eq_ok_iff.mpr ⟨canvas, rfl, bind_eq_ok_iff.mpr ⟨_, by rw [hwritten]; rfl, rfl⟩⟩

/-- A drawing none of whose extents is a sum with a whole number that is too large has a canvas as
wide and as high as the padding beside its greatest extents, where undefined extents do not count,
unless one of these two sums has such a number. The order of the primitives does not matter where
the padding is a double or no whole extent ties with a double; beside a whole padding that a double
holds the size measures the same in any order. So in exact arithmetic every source that can be read
is rendered, on a grid or in layers, on a canvas that contains the boxes of all entities, with the
padding of the canvas to their right and below. -/
theorem canvas_contains_diagram [Layered.ComponentLayout Rat] :
    (∀ (primitives : List (Primitive Number)) (padding : Number),
      ((∀ primitive ∈ primitives, primitive.IsExtended) →
        ∃ right bottom, Number.IsGreatest (Scalar.approx 0) (extents (·.x) primitives) right ∧
          Number.IsGreatest (Scalar.approx 0) (extents (·.y) primitives) bottom ∧
          canvasSize primitives padding =
            if Scalar.combines right padding && Scalar.combines bottom padding then
              .ok ⟨right + padding, bottom + padding⟩
            else .error .tooLarge) ∧
      ((¬∀ primitive ∈ primitives, primitive.IsExtended) →
        canvasSize primitives padding = .error .tooLarge)) ∧
    (∀ primitives others : List (Primitive Number), primitives.Perm others →
      (∀ padding, (∃ x, padding = .double x) ∨ ExtentsTieInKind primitives →
        canvasSize primitives padding = canvasSize others padding) ∧
      ∀ n : Int, Double.IsWhole n.natAbs → (canvasSize primitives (.whole n)).map Size.reading =
        (canvasSize others (.whole n)).map Size.reading) ∧
    ∀ (source : String) (document : Source.Document) (o : Options),
      Source.parse source = .ok document → 0 ≤ o.paddingSize → 0 < o.cellWidthSize →
      0 < o.cellHeightSize →
      let s := (Session.create Diagram.empty o).openSchema (α := Rat) document.schema
      ∃ drawing canvas image, s.2 = .ok drawing ∧ render Rat source o = .ok image ∧
        canvasSize drawing.primitives canvasPadding = .ok canvas ∧
        image.svg = svg drawing.primitives canvas o.fontName o.transparent ∧
        s.1.diagram.schema = document.schema ∧ drawing.HasBoxesOf s.1.diagram.nodes ∧
        ∀ b, .box b ∈ drawing.primitives → b.rect.LiesIn canvas canvasPadding := by
  refine ⟨?_, ?_, ?_⟩
  · intro primitives padding
    refine ⟨fun hextended => ?_, fun hextended => canvasSize_eq_error hextended padding⟩
    obtain ⟨right, bottom, hright, hbottom, hsize⟩ := exists_isGreatest_extents hextended
    refine ⟨right, bottom, hright, hbottom, ?_⟩
    rw [hsize, Scalar.sum, Scalar.sum]
    cases Scalar.combines right padding <;> cases Scalar.combines bottom padding <;> rfl
  · intro primitives others h
    exact ⟨fun padding => canvasSize_perm h, fun n => reading_canvasSize_perm h⟩
  · intro source document o hparse hpadding hwidth hheight s
    have valid : document.schema.violation? = none := by
      obtain ⟨found, -, valid, rfl⟩ := (Source.parse_eq_ok_iff _ _).mp hparse
      exact valid
    obtain ⟨drawing, canvas, hdrawing, hcanvas, hboxes, hlies⟩ := Session.liesIn_openSchema
      (Session.create Diagram.empty o) valid hpadding hwidth.le hheight.le canvasPadding
    have hopened := (Session.create (α := Rat) Diagram.empty o).hasOpened_openSchema valid
    refine ⟨drawing, canvas, _, hdrawing, render_exact_eq_ok hparse hdrawing hcanvas, hcanvas, ?_,
      hopened.schema_eq, hboxes, hlies⟩
    dsimp only

/-- Two texts at the same distance, one a whole number and one a double, and one that is nowhere:
the canvas measures the same in either order. And two entities in layers, with no padding around
them. -/
theorem canvas_contains_diagram_of_layers :
    let text (x : Number) : Primitive Number := .text ⟨x, 5⟩ "" .start .discriminator
    let texts := [text (.double (0 / 0)), text (.whole 7), text (.double 7)]
    let source := "Entity A \x7b\n+id: n\n\x7d\nEntity B \x7b\na: n FK -> A.id\n\x7d"
    let o : Options := { Options.default with padding := some 0, arrangement := .layered }
    canvasSize texts (.double 40) = canvasSize texts.reverse (.double 40) ∧
      (canvasSize texts (.whole 40)).map (·.width) = .ok (.whole 47) ∧
      (canvasSize texts.reverse (.whole 40)).map (·.width) = .ok (.double 47) ∧
      (canvasSize texts (.whole 40)).map Size.reading =
        (canvasSize texts.reverse (.whole 40)).map Size.reading ∧
      ∃ (s : Session Rat) (drawing : Drawing Rat) (canvas : Size Rat) (image : Image),
        s.diagram.schema.entities.map (·.name) = ["A", "B"] ∧
        drawing.HasBoxesOf s.diagram.nodes ∧ render Rat source o = .ok image ∧
        ∀ b, .box b ∈ drawing.primitives → b.rect.LiesIn canvas canvasPadding := by
  intro text texts source o
  let schema : Schema :=
    { entities := [⟨"A", [⟨"id", "n", false, false, none⟩], []⟩,
        ⟨"B", [], [⟨"a", "n", false, false, some ⟨"A", "id"⟩⟩]⟩]
      relationships := [⟨⟨"B", "a"⟩, ⟨"A", "id"⟩, none⟩]
      generalizations := [] }
  have hparse : Source.parse source = .ok ⟨schema, []⟩ := by decide +kernel
  obtain ⟨-, hperm, hrenders⟩ := canvas_contains_diagram
  obtain ⟨hsame, hreading⟩ := hperm texts texts.reverse texts.reverse_perm.symm
  obtain ⟨drawing, canvas, image, -, himage, -, -, hschema, hboxes, hlies⟩ :=
    hrenders source ⟨schema, []⟩ o hparse (by decide) (by decide) (by decide)
  refine ⟨hsame _ (.inl ⟨40, rfl⟩), by decide +kernel, by decide +kernel,
    hreading 40 (Double.isWhole_of_lt (by decide)), _, drawing, canvas, image, ?_, hboxes, himage,
    hlies⟩
  rw [hschema]
  rfl

/-- A box whose place is too large has no right side. And of two texts at the same distance, one a
whole number and one a double, the first decides whether a whole padding is rounded. -/
theorem not_forall_reading_canvasSize_perm :
    let text (x : Number) : Primitive Number := .text ⟨x, 5⟩ "" .start .discriminator
    let box : Box Number := ⟨⟨.whole (10 ^ 400), 5, .double 200, 54⟩, .weakEntity, "A", [], []⟩
    canvasSize [.box box] (.whole 40) = .error .tooLarge ∧
      (canvasSize [text (.whole 6), text (.double 6)] (.whole (2 ^ 53 + 1))).map (·.width) =
        .ok (.whole (2 ^ 53 + 7)) ∧
      (canvasSize [text (.double 6), text (.whole 6)] (.whole (2 ^ 53 + 1))).map (·.width) =
        .ok (.double 0x20000000000006) ∧
      ¬∀ (primitives others : List (Primitive Number)) (padding : Number),
        primitives.Perm others → (canvasSize primitives padding).map Size.reading =
          (canvasSize others padding).map Size.reading := by
  intro text box
  refine ⟨by decide +kernel, by decide +kernel, by decide +kernel, fun h => ?_⟩
  have hsame := h [text (.whole 6), text (.double 6)] [text (.double 6), text (.whole 6)]
    (.whole (2 ^ 53 + 1)) (.swap _ _ _)
  revert hsame
  decide +kernel

end EntityDiagram
