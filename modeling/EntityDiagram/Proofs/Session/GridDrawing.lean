import EntityDiagram.Proofs.Drawing.SelfReferences
import EntityDiagram.Proofs.Session.Invariant

/-! What a source shows at once on a grid. Every box is measured before it is placed, and where the
cells hold them all, the drawing that a source opens with is complete but for self references. -/
namespace EntityDiagram

/-- A box is at least as wide as any other, and has room for its title and one row. -/
theorem Measure.le_entity (e : Entity) : (140 : Rat) ≤ (Measure.entity e : Size Rat).width ∧
    (54 : Rat) ≤ (Measure.entity e : Size Rat).height := by
  constructor
  · change 140 ≤ Scalar.larger (Scalar.larger (140 : Rat) _) _
    rw [Scalar.larger_exact, Scalar.larger_exact]
    exact le_max_of_le_left (le_max_left _ _)
  · have hrows : (1 : Rat) ≤ (max (e.attributes.length : Int) 1 : Int) := by
      exact_mod_cast le_max_right (e.attributes.length : Int) 1
    have hbody : (54 : Rat) ≤ 32 + (max (e.attributes.length : Int) 1 : Int) * 22 := by linarith
    have hgap : (54 : Rat) ≤ 32 + (max (e.attributes.length : Int) 1 : Int) * 22 + 6 := by linarith
    unfold entity
    simp only
    split_ifs
    · exact hbody
    · exact hgap

/-- The cells of a grid hold the box of an entity. -/
def Grid.Holds (o : Options) (e : Entity) : Prop :=
  (Measure.entity e : Size Rat).width ≤ o.cellWidthSize ∧
    (Measure.entity e : Size Rat).height ≤ o.cellHeightSize

theorem Grid.Holds.fits {o : Options} {e : Entity} (h : Holds o e) : Fits o (Measure.entity e) := by
  obtain ⟨hwidth, hheight⟩ := Measure.le_entity e
  exact ⟨by linarith, by linarith, h.1, h.2⟩

/-- Measured boxes on a grid whose cells hold them. -/
theorem Diagram.isSpread_grid_measure {schema : Schema} {o : Options}
    (hholds : ∀ e ∈ schema.entities, Grid.Holds o e) (hpadding : 0 ≤ o.paddingSize) :
    ((Diagram.ofSchema schema).measure.grid o).IsSpread o.paddingSize := by
  refine isSpread_grid ?_ hpadding
  intro n hn
  obtain ⟨m, hm, rfl⟩ := List.mem_map.mp hn
  obtain ⟨e, he, rfl⟩ := List.mem_map.mp hm
  exact ⟨_, rfl, (hholds e he).fits⟩

namespace Session

section

variable [Layered.ComponentLayout Rat] {s : Session Rat} {schema : Schema}

/-- On a grid a schema is always laid out to the end, and drawn. -/
theorem openSchema_grid (hgrid : s.options.arrangement = .grid) : s.openSchema schema =
    redraw { s with
      diagram := (Diagram.ofSchema schema).measure.grid s.options, drag := none } := by
  unfold openSchema autoLayout Diagram.arrange
  simp only [hgrid]

/-- A valid schema on a grid with a padding, whose cells hold every box. -/
theorem openSchema_draws (valid : schema.violation? = none)
    (hgrid : s.options.arrangement = .grid) (hpadding : 1 ≤ s.options.paddingSize)
    (hholds : ∀ e ∈ schema.entities, Grid.Holds s.options e) :
    ∃ drawing blocks, (s.openSchema schema).2 = .ok drawing ∧
      (s.openSchema schema).1.diagram.Draws drawing blocks ∧ blocks.map (·.1) = schema.subjects ∧
      ∀ block ∈ blocks, (s.openSchema schema).1.diagram.LosesSelfReferences block := by
  have hschema : (s.openSchema schema).1.diagram.schema = schema :=
    (s.hasOpened_openSchema valid).schema_eq
  have hspread : (s.openSchema schema).1.diagram.IsSpread s.options.paddingSize := by
    rw [openSchema_grid hgrid]
    exact Diagram.isSpread_grid_measure hholds (by omega)
  obtain ⟨drawing, hdraw⟩ := (s.openSchema schema).1.diagram.exists_draw_eq_ok_exact
  obtain ⟨blocks, hblocks, hsubjects, hloses⟩ := Diagram.exists_blocks_of_isSpread hspread
    (by exact_mod_cast hpadding) (hschema.symm ▸ valid) hdraw
  have hresult : (s.openSchema schema).2 = .ok drawing := by
    rw [openSchema_grid hgrid] at hdraw ⊢
    exact mapError_eq_ok_iff.mpr hdraw
  exact ⟨drawing, blocks, hresult, hblocks, hschema ▸ hsubjects, hloses⟩

/-- In exact arithmetic, a source that can be read is drawn at once on a grid with a padding, if its
cells hold every box. The drawing has a block for every entity, relationship, junction and connector
of the schema. The errors are those of the relationships from an entity to itself, one for each and
in their order, and say that the centers are the same; every other block has all that belongs to it.
-/
theorem load_draws_all_but_self_references {source : String} {document : Source.Document}
    (hparse : Source.parse source = .ok document)
    (hgrid : s.options.arrangement = .grid) (hpadding : 1 ≤ s.options.paddingSize)
    (hholds : ∀ e ∈ document.schema.entities, Grid.Holds s.options e) :
    ∃ drawing blocks, (s.load source).2 = .ok drawing ∧
      (s.load source).1.diagram.Draws drawing blocks ∧
      blocks.map (·.1) = document.schema.subjects ∧
      (∀ block ∈ blocks, (s.load source).1.diagram.LosesSelfReferences block) ∧
      List.Forall₂ (s.load source).1.diagram.LosesReference
        (document.schema.relationships.filter (·.isSelfReference)) drawing.errors := by
  obtain ⟨found, -, valid, rfl⟩ := (Source.parse_eq_ok_iff _ _).mp hparse
  have hload : s.load source = s.openSchema (Source.Block.schema found) := by rw [load, hparse]
  rw [hload]
  obtain ⟨drawing, blocks, hdrawing, hblocks, hsubjects, hloses⟩ :=
    openSchema_draws valid hgrid hpadding hholds
  refine ⟨drawing, blocks, hdrawing, hblocks, hsubjects, hloses, ?_⟩
  have herrors := Diagram.forall₂_errors hloses
  rwa [← hblocks.drawing, hsubjects, Schema.filterMap_selfReference?_subjects] at herrors

end

/-- A mentor who is a person too: one of two relationships is lost, and neither the junction nor its
connector. The cells are no larger than the largest box, and one apart. -/
theorem load_draws_all_but_self_references_of_mentor :
    let s : Session Rat := create Diagram.empty
      { Options.default with padding := some 1, cellWidth := some 140, cellHeight := some 82 }
    let source := "Entity P \x7b\n+id: n\n?mentor: n FK -> P.id\n\x7d\n" ++
      "Entity S \x7b\ntutor: n FK -> P.id\n\x7d\nGeneralization P \x7b S \x7d"
    let mentor : Relationship := ⟨⟨"P", "mentor"⟩, ⟨"P", "id"⟩, none⟩
    let tutor : Relationship := ⟨⟨"S", "tutor"⟩, ⟨"P", "id"⟩, none⟩
    let kinds : Generalization := ⟨"P", ["S"], false, none⟩
    ∃ drawing blocks, (s.load source).2 = .ok drawing ∧
      (s.load source).1.diagram.Draws drawing blocks ∧
      blocks.map (·.1) = [.entity "P", .entity "S", .relationship mentor, .relationship tutor,
        .junction kinds, .connector kinds "S"] ∧
      (∀ block ∈ blocks, (s.load source).1.diagram.LosesSelfReferences block) ∧
      ∃ e, (s.load source).1.diagram.LosesReference mentor e ∧ drawing.errors = [e] := by
  intro s source mentor tutor kinds
  let schema : Schema :=
    { entities :=
        [⟨"P", [⟨"id", "n", false, false, none⟩],
            [⟨"mentor", "n", true, false, some ⟨"P", "id"⟩⟩]⟩,
          ⟨"S", [], [⟨"tutor", "n", false, false, some ⟨"P", "id"⟩⟩]⟩]
      relationships := [mentor, tutor]
      generalizations := [kinds] }
  have hparse : Source.parse source = .ok ⟨schema, []⟩ := by decide +kernel
  have hholds : ∀ e ∈ schema.entities, Grid.Holds s.options e := by
    unfold Grid.Holds
    decide +kernel
  obtain ⟨drawing, blocks, hdrawing, hblocks, hsubjects, hloses, herrors⟩ :=
    load_draws_all_but_self_references hparse rfl (by decide) hholds
  have hself : schema.relationships.filter (·.isSelfReference) = [mentor] := by decide
  obtain ⟨e, rest, he, hrest, heq⟩ := List.forall₂_cons_left_iff.mp (hself ▸ herrors)
  obtain rfl := List.forall₂_nil_left_iff.mp hrest
  exact ⟨drawing, blocks, hdrawing, hblocks, hsubjects, hloses, e, he, heq⟩

end Session

end EntityDiagram
