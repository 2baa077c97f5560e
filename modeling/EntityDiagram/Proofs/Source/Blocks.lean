import EntityDiagram.Source
import EntityDiagram.Proofs.Schema.References

/-! What blocks say about the schema that they declare. A source is read to its end exactly when its
lines have the form of blocks and no name is declared twice; the schema then has distinct names, and
every relationship starts at the attribute whose foreign key makes it. -/
namespace EntityDiagram.Source

theorem repeatedDeclaration?_eq_none_iff (earlier : List String)
    (declarations : List (Located Declaration)) :
    repeatedDeclaration? earlier declarations = none ↔
      (declarations.map (·.value.content.name)).Nodup ∧
        ∀ d ∈ declarations, d.value.content.name ∉ earlier := by
  induction declarations generalizing earlier with
  | nil => simp [repeatedDeclaration?]
  | cons d rest ih =>
    by_cases h : d.value.content.name ∈ earlier
    · simp [repeatedDeclaration?, h]
    · rw [repeatedDeclaration?, if_neg h, ih, List.map_cons, List.nodup_cons]
      grind

theorem repeatError?_eq_none_iff (earlier blocks : List EntityBlock) :
    repeatError? earlier blocks = none ↔ (blocks.map (·.name)).Nodup ∧
      (∀ b ∈ blocks, ∀ first ∈ earlier, first.name ≠ b.name) ∧
        ∀ b ∈ blocks, (b.declarations.map (·.value.content.name)).Nodup := by
  induction blocks generalizing earlier with
  | nil => simp [repeatError?]
  | cons b rest ih =>
    rw [repeatError?]
    cases hfind : earlier.find? (·.name = b.name) with
    | some first =>
      have hmem := List.mem_of_find?_eq_some hfind
      have hname := List.find?_some hfind
      simp only [reduceCtorEq, false_iff]
      rintro ⟨-, hfresh, -⟩
      exact hfresh b (by simp) first hmem (by simpa using hname)
    | none =>
      simp only [List.find?_eq_none, decide_eq_true_eq] at hfind
      cases hrepeat : repeatedDeclaration? [] b.declarations with
      | some d =>
        simp only [reduceCtorEq, false_iff]
        rintro ⟨-, -, hdistinct⟩
        have := (repeatedDeclaration?_eq_none_iff [] b.declarations).mpr
          ⟨hdistinct b (by simp), by simp⟩
        simp [this] at hrepeat
      | none =>
        have hdistinct := ((repeatedDeclaration?_eq_none_iff [] b.declarations).mp hrepeat).1
        simp only [ih, List.map_cons, List.nodup_cons]
        grind

theorem Block.mem_filterMap_entity?_iff {blocks : List Block} {b : EntityBlock} :
    b ∈ blocks.filterMap entity? ↔ .entity b ∈ blocks := by
  rw [List.mem_filterMap]
  constructor
  · rintro ⟨block, hblock, hb⟩
    cases block with
    | entity block => cases hb; exact hblock
    | generalization block => contradiction
  · intro hb
    exact ⟨_, hb, rfl⟩

theorem Block.mem_filterMap_generalization?_iff {blocks : List Block} {b : GeneralizationBlock} :
    b ∈ blocks.filterMap generalization? ↔ .generalization b ∈ blocks := by
  rw [List.mem_filterMap]
  constructor
  · rintro ⟨block, hblock, hb⟩
    cases block with
    | entity block => contradiction
    | generalization block => cases hb; exact hblock
  · intro hb
    exact ⟨_, hb, rfl⟩

/-- The attributes of an entity are those of its declarations, the key ones first. -/
theorem EntityBlock.attributes_perm (b : EntityBlock) :
    b.entity.attributes.Perm (b.declarations.map (·.value.content)) := by
  have hperm := List.filter_append_perm (fun d : Located Declaration => d.value.isKey)
    b.declarations
  have hmap := hperm.map (·.value.content)
  rw [List.map_append] at hmap
  simpa [entity, Entity.attributes, attributesWhere, Bool.not_eq_true] using hmap

theorem EntityBlock.nodup_attributes_iff (b : EntityBlock) :
    (b.entity.attributes.map (·.name)).Nodup ↔
      (b.declarations.map (·.value.content.name)).Nodup := by
  have hperm := (b.attributes_perm.map (·.name)).nodup_iff
  rwa [List.map_map] at hperm

/-- No name is declared twice exactly when the schema has distinct names. -/
theorem repeatError?_eq_none_iff_hasDistinctNames (blocks : List Block) :
    repeatError? [] (blocks.filterMap Block.entity?) = none ↔
      (Block.schema blocks).HasDistinctNames := by
  have hnames : (Block.schema blocks).entities.map (·.name) =
      (blocks.filterMap Block.entity?).map (·.name) := by
    simp only [Block.schema, List.map_map]
    rfl
  rw [repeatError?_eq_none_iff]
  constructor
  · rintro ⟨hblocks, -, hdeclarations⟩
    refine ⟨hnames ▸ hblocks, ?_⟩
    intro e he
    obtain ⟨b, hb, rfl⟩ := List.mem_map.mp he
    exact b.nodup_attributes_iff.mpr (hdeclarations b hb)
  · intro h
    refine ⟨hnames ▸ h.entities, by simp, ?_⟩
    intro b hb
    exact b.nodup_attributes_iff.mp (h.attributes b.entity (List.mem_map_of_mem hb))

/-- The blocks of a source are those that its lines form, if no line is malformed and no name is
declared twice. -/
theorem readBlocks_eq_ok_iff (source : List Char) (blocks : List Block) :
    readBlocks source = .ok blocks ↔
      Context.outside.scan (significantLines source) = ⟨blocks, none⟩ ∧
        (Block.schema blocks).HasDistinctNames := by
  rw [← repeatError?_eq_none_iff_hasDistinctNames]
  generalize hscan : Context.outside.scan (significantLines source) = scan
  obtain ⟨found, malformed⟩ := scan
  simp only [readBlocks, hscan, Scan.mk.injEq]
  split
  · rename_i h
    constructor
    · intro hok
      contradiction
    · rintro ⟨⟨rfl, rfl⟩, hnone⟩
      simp [hnone] at h
  · simp_all
  · rename_i hnone
    constructor
    · rintro ⟨rfl⟩
      exact ⟨⟨rfl, rfl⟩, hnone⟩
    · rintro ⟨⟨rfl, -⟩, -⟩
      rfl

theorem EntityBlock.map_value_relationships (b : EntityBlock) :
    b.relationships.map (·.value) =
      b.declarations.filterMap fun d => relationship? b.name d.value := by
  rw [relationships, List.map_filterMap]
  apply List.filterMap_congr
  intro d _
  cases relationship? b.name d.value <;> rfl

/-- Relationships stand block by block, in the order of the declarations that make them. -/
theorem Block.schema_relationships (blocks : List Block) :
    (schema blocks).relationships = (blocks.filterMap entity?).flatMap fun b =>
      b.declarations.filterMap fun d => EntityBlock.relationship? b.name d.value := by
  change (relationships blocks).map (·.value) = _
  rw [relationships, List.map_flatMap]
  apply List.flatMap_congr
  intro b _
  exact b.map_value_relationships

theorem Block.exists_madeBy {blocks : List Block} {r : Relationship}
    (h : r ∈ (schema blocks).relationships) : ∃ e a, (schema blocks).MadeBy r e a := by
  rw [schema_relationships, List.mem_flatMap] at h
  obtain ⟨b, hb, h⟩ := h
  obtain ⟨d, hd, h⟩ := List.mem_filterMap.mp h
  obtain ⟨target, hreference, rfl⟩ := Option.map_eq_some_iff.mp h
  refine ⟨b.entity, d.value.content, ?_⟩
  constructor
  · exact List.mem_map_of_mem hb
  · exact b.attributes_perm.mem_iff.mpr (List.mem_map_of_mem hd)
  · rfl
  · exact hreference

end EntityDiagram.Source
