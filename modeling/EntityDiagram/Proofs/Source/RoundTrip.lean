import EntityDiagram.Proofs.Source.CanonicalBlocks
import EntityDiagram.Proofs.Source.ForeignKeys

/-! Writing a schema down and reading it again. The schema of a source is read back from its
canonical source; only the relationships of an entity may change places, since its primary key comes
first there. -/
namespace EntityDiagram.Source

open Text

variable {s : Schema}

/-- A relationship with the label that its source has in a schema. -/
def labelled (s : Schema) (ends : AttributeRef × AttributeRef) : Relationship :=
  ⟨ends.1, ends.2, s.label? ends.1⟩

/-- Where no attribute makes two relationships, a relationship is found by its source. -/
theorem map_labelled_ends (sources : (s.relationships.map (·.source)).Nodup)
    {relationships : List Relationship} (h : relationships ⊆ s.relationships) :
    (relationships.map (·.ends)).map (labelled s) = relationships := by
  rw [List.map_map, List.map_congr_left (g := id), List.map_id]
  intro r hr
  have hfind := find?_key_eq_some sources (h hr)
  simp only [Function.comp_apply, labelled, Relationship.ends, Schema.label?, hfind, id]
  rfl

theorem filterMap_relationship?_map (s : Schema) (e : Entity) (isKey : Bool)
    (attributes : List Attribute) :
    (attributes.map fun a => (⟨isKey, a, s.label? ⟨e.name, a.name⟩⟩ : Declaration)).filterMap
      (EntityBlock.relationship? e.name) = (e.foreignKeys attributes).map (labelled s) := by
  rw [Entity.foreignKeys, List.filterMap_map, List.map_filterMap]
  apply List.filterMap_congr
  intro a _
  simp only [Function.comp_apply, EntityBlock.relationship?, Option.map_map]
  rfl

/-- The declarations of an entity make its relationships again, those of the primary key first. -/
theorem filterMap_relationship?_declarations (mirrors : s.MirrorsForeignKeys)
    (names : s.HasDistinctNames) {e : Entity} (he : e ∈ s.entities) :
    (declarations s e).filterMap (EntityBlock.relationship? e.name) =
      (s.relationshipsOf e).filter (·.startsIn e.key) ++
        (s.relationshipsOf e).filter (!·.startsIn e.key) := by
  have hown : ∀ p : Relationship → Bool, (s.relationshipsOf e).filter p ⊆ s.relationships :=
    fun p => List.Subset.trans List.filter_sublist.subset List.filter_sublist.subset
  have hsources := mirrors.nodup_sources names
  rw [← map_labelled_ends hsources (hown _), mirrors.inKey e he,
    ← map_labelled_ends hsources (hown (!·.startsIn e.key)), mirrors.outsideKey e he,
    declarations, List.filterMap_append, filterMap_relationship?_map, filterMap_relationship?_map]

theorem EntityBlock.attributesWhere_eq (b : EntityBlock) (isKey : Bool) : b.attributesWhere isKey =
    ((b.declarations.map (·.value)).filter (·.isKey = isKey)).map (·.content) := by
  rw [attributesWhere, List.filter_map, List.map_map]
  rfl

/-- A block that says what an entity says declares that entity. -/
theorem EntityBlock.Declares.entity_eq {b : EntityBlock} {e : Entity} (h : b.Declares s e) :
    b.entity = e := by
  obtain ⟨hname, hvalues⟩ := h
  obtain ⟨name, key, others⟩ := e
  rw [entity, attributesWhere_eq, attributesWhere_eq, hvalues, hname]
  simp [Source.declarations, List.filter_map, Function.comp_def]

/-- Blocks that say what entities say, block by block. -/
theorem map_entity_of_declares {blocks : List EntityBlock} {entities : List Entity}
    (h : List.Forall₂ (EntityBlock.Declares s) blocks entities) :
    blocks.map (·.entity) = entities ∧
      (blocks.flatMap fun b => b.declarations.filterMap fun d =>
        EntityBlock.relationship? b.name d.value) =
          entities.flatMap fun e =>
            (declarations s e).filterMap (EntityBlock.relationship? e.name) := by
  induction h with
  | nil => exact ⟨rfl, rfl⟩
  | @cons b e blocks entities hb _ ih =>
    have hmade : b.declarations.filterMap (fun d => EntityBlock.relationship? b.name d.value) =
        (declarations s e).filterMap (EntityBlock.relationship? e.name) := by
      rw [← hb.1, ← hb.2, List.filterMap_map]
      rfl
    rw [List.map_cons, hb.entity_eq, ih.1, List.flatMap_cons, hmade, ih.2, List.flatMap_cons]
    exact ⟨rfl, rfl⟩

/-- The canonical blocks declare the schema that they are made from. -/
theorem schema_canonical (mirrors : s.MirrorsForeignKeys) (names : s.HasDistinctNames)
    {blocks : List EntityBlock} {generalizations : List GeneralizationBlock}
    (hblocks : List.Forall₂ (EntityBlock.Declares s) blocks s.entities)
    (hgeneralizations : generalizations.map (·.generalization) = s.generalizations) :
    Block.schema (blocks.map .entity ++ generalizations.map .generalization) = s.keysFirst := by
  have hentity : (blocks.map Block.entity ++
      generalizations.map Block.generalization).filterMap Block.entity? = blocks := by
    simp [List.filterMap_append, List.filterMap_map, Function.comp_def, Block.entity?]
  have hgeneralization : (blocks.map Block.entity ++ generalizations.map
      Block.generalization).filterMap Block.generalization? = generalizations := by
    simp [List.filterMap_append, List.filterMap_map, Function.comp_def, Block.generalization?]
  obtain ⟨hentities, hmade⟩ := map_entity_of_declares hblocks
  have hrelationships : (Block.schema (blocks.map .entity ++
      generalizations.map .generalization)).relationships = s.keysFirst.relationships := by
    rw [Block.schema_relationships, hentity, hmade]
    exact List.flatMap_congr fun e he => filterMap_relationship?_declarations mirrors names he
  rw [Block.schema, Schema.keysFirst, Schema.mk.injEq]
  exact ⟨by rw [hentity, hentities], hrelationships, by rw [hgeneralization, hgeneralizations]⟩

/-- What a canonical source is read as. -/
theorem scan_canonicalText (printable : IsPrintableSchema s) (mirrors : s.MirrorsForeignKeys)
    (names : s.HasDistinctNames) :
    ∃ (blocks : List EntityBlock) (generalizations : List GeneralizationBlock),
      List.Forall₂ (EntityBlock.Declares s) blocks s.entities ∧
      generalizations.map (·.generalization) = s.generalizations ∧
      (∀ b ∈ generalizations, b.duplicates = []) ∧
      Context.outside.scan (significantLines (canonicalText s).toList) =
        ⟨blocks.map .entity ++ generalizations.map .generalization, none⟩ := by
  have hlines : lines (canonicalText s).toList = canonicalLines s := by
    rw [canonicalText, String.toList_ofList]
    exact lines_flatMap_newline fun t ht =>
      (isLine_of_mem_canonicalLines printable mirrors names t ht).onOneLine
  obtain ⟨blocks, m, hblocks, hentities⟩ := scan_entities printable.names
    (fun e he => isPrintable_of_mem_declarations printable mirrors names he) 1
    (s.generalizations.flatMap generalizationLines)
  obtain ⟨generalizations, hgeneralizations, hduplicates, hothers⟩ :=
    scan_generalizations printable.generalizations m
  refine ⟨blocks, generalizations, hblocks, hgeneralizations, hduplicates, ?_⟩
  rw [significantLines, hlines, canonicalLines, hentities, hothers]

/-- The schema of a source is read again from its canonical source: the same entities with the same
attributes, the same generalizations, and the same relationships entity by entity, those of the
primary key first. -/
theorem parse_canonicalText {source : String} {document : Document}
    (h : parse source = .ok document) :
    parse (canonicalText document.schema) = .ok ⟨document.schema.keysFirst, []⟩ ∧
      document.schema.relationships =
        document.schema.entities.flatMap document.schema.relationshipsOf := by
  obtain ⟨read, hscan, valid, rfl⟩ := (parse_eq_ok_iff source document).mp h
  have names := ((Block.schema read).violation?_eq_none_iff.mp valid).1
  have mirrors := mirrorsForeignKeys_schema names
  have printable : IsPrintableSchema (Block.schema read) := by
    apply isPrintableSchema_of_blocks
    have hprintable := isPrintable_of_mem_scan source.toList
    rwa [hscan] at hprintable
  obtain ⟨blocks, generalizations, hblocks, hgeneralizations, hduplicates, hread⟩ :=
    scan_canonicalText printable mirrors names
  have hschema := schema_canonical mirrors names hblocks hgeneralizations
  refine ⟨(parse_eq_ok_iff _ _).mpr ⟨_, hread, ?_, ?_⟩, mirrors.grouped⟩
  · rw [hschema]
    exact mirrors.violation?_keysFirst valid
  · have hnone : Block.duplicateCategories
        (blocks.map .entity ++ generalizations.map .generalization) = [] := by
      rw [Block.duplicateCategories_append, Block.duplicateCategories, Block.duplicateCategories]
      simp only [List.filterMap_map, List.append_eq_nil_iff, List.flatMap_eq_nil_iff]
      constructor
      · intro b hb
        simp [Block.generalization?] at hb
      · intro b hb
        simp only [Function.comp_def, Block.generalization?, List.filterMap_some] at hb
        exact hduplicates b hb
    rw [hschema, hnone]

/-- A label that looks like a foreign key, on an attribute declared before the primary key. -/
theorem parse_canonicalText_of_label :
    ∃ document, parse "Entity A \x7b b:t FK->A.id \"x FK -> A.b\"\n+id: n FK -> A.id\x7d" =
        .ok document ∧
      parse (canonicalText document.schema) = .ok ⟨document.schema.keysFirst, []⟩ ∧
      document.schema.keysFirst ≠ document.schema := by
  have h : parse "Entity A \x7b b:t FK->A.id \"x FK -> A.b\"\n+id: n FK -> A.id\x7d" = .ok
      ⟨⟨[⟨"A", [⟨"id", "n", false, false, some ⟨"A", "id"⟩⟩],
        [⟨"b", "t", false, false, some ⟨"A", "id"⟩⟩]⟩],
        [⟨⟨"A", "b"⟩, ⟨"A", "id"⟩, some "x FK -> A.b"⟩, ⟨⟨"A", "id"⟩, ⟨"A", "id"⟩, none⟩], []⟩,
        []⟩ := by
    decide +kernel
  exact ⟨_, h, (parse_canonicalText h).1, by decide +kernel⟩

end EntityDiagram.Source
