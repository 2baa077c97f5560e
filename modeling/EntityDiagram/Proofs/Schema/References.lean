import EntityDiagram.Schema.Cardinality
import EntityDiagram.Proofs.Schema.Names

/-! Which schemas have no violation: their names are distinct, every reference leads to an
attribute, every generalization joins different entities of the schema, and the search for cycles
finds none. In such a schema the cardinality of a relationship is defined. -/
namespace EntityDiagram.Schema

variable {s : Schema}

/-- A generalization between entities of a schema, none of which is its own category. -/
structure JoinsEntities (s : Schema) (g : Generalization) : Prop where
  generic : g.generic ∈ s.entities.map (·.name)
  categories : ∀ name ∈ g.categories, name ∈ s.entities.map (·.name) ∧ name ≠ g.generic

theorem categoryViolation?_eq_none_iff (s : Schema) (generic category : String) :
    s.categoryViolation? generic category = none ↔
      category ∈ s.entities.map (·.name) ∧ category ≠ generic := by
  rw [← isSome_entity?_iff, Option.isSome_iff_ne_none]
  unfold categoryViolation?
  split_ifs <;> simp_all

theorem generalizationViolation?_eq_none_iff (s : Schema) (g : Generalization) :
    s.generalizationViolation? g = none ↔ s.JoinsEntities g := by
  unfold generalizationViolation?
  split_ifs with h
  · constructor
    · intro hn
      contradiction
    · intro hg
      have := (isSome_entity?_iff s g.generic).mpr hg.generic
      simp_all
  · rw [List.findSome?_eq_none_iff]
    simp only [categoryViolation?_eq_none_iff]
    constructor
    · intro hc
      exact ⟨(isSome_entity?_iff s g.generic).mp (by simpa [Option.isSome_iff_ne_none] using h), hc⟩
    · exact fun hg => hg.categories

/-- Both ends of every relationship are attributes of the schema. -/
def HasRelationshipEnds (s : Schema) : Prop :=
  ∀ r ∈ s.relationships, s.HasAttribute r.source ∧ s.HasAttribute r.target

theorem violation?_eq_none_iff (s : Schema) :
    s.violation? = none ↔ s.HasDistinctNames ∧ s.HasRelationshipEnds ∧
      (∀ g ∈ s.generalizations, s.JoinsEntities g) ∧ s.cycle? = none := by
  simp only [violation?, Option.or_eq_none_iff, repeatViolation?_eq_none_iff_hasDistinctNames,
    List.findSome?_eq_none_iff, generalizationViolation?_eq_none_iff, Option.map_eq_none_iff]
  apply and_congr_right
  intro names
  simp [HasRelationshipEnds, names.referenceViolation?_eq_none_iff]

theorem HasDistinctNames.resolveEnd_eq (h : s.HasDistinctNames) {e : Entity}
    (he : e ∈ s.entities) {a : Attribute} (ha : a ∈ e.attributes) :
    s.resolveEnd ⟨e.name, a.name⟩ = .ok (e, a) := by
  simp [resolveEnd, h.entity?_eq he, h.attribute?_eq he ha]

/-- Between two attributes of the schema the cardinality is that of the source. -/
theorem HasDistinctNames.cardinality_eq (h : s.HasDistinctNames) {r : Relationship} {e : Entity}
    (he : e ∈ s.entities) {a : Attribute} (ha : a ∈ e.attributes)
    (source : r.source = ⟨e.name, a.name⟩) (target : s.HasAttribute r.target) :
    s.cardinality r = .ok ⟨a.optional, a.many⟩ := by
  obtain ⟨f, hf, b, hb, htarget⟩ := target
  rw [cardinality, source, htarget, h.resolveEnd_eq he ha, h.resolveEnd_eq hf hb]
  rfl

/-- The entity and the attribute whose foreign key makes a relationship. -/
structure MadeBy (s : Schema) (r : Relationship) (e : Entity) (a : Attribute) : Prop where
  mem_entities : e ∈ s.entities
  mem_attributes : a ∈ e.attributes
  source_eq : r.source = ⟨e.name, a.name⟩
  reference_eq : a.reference = some r.target

variable {r : Relationship} {e : Entity} {a : Attribute}

theorem MadeBy.hasAttribute (h : s.MadeBy r e a) : s.HasAttribute r.source :=
  ⟨e, h.mem_entities, a, h.mem_attributes, h.source_eq⟩

/-- A relationship takes its cardinality from the foreign key that makes it. -/
theorem MadeBy.cardinality_eq (h : s.MadeBy r e a) (names : s.HasDistinctNames)
    (target : s.HasAttribute r.target) : s.cardinality r = .ok ⟨a.optional, a.many⟩ :=
  names.cardinality_eq h.mem_entities h.mem_attributes h.source_eq target

/-- A relationship is identifying exactly when the foreign key that makes it is in the primary key
of its entity. -/
theorem MadeBy.isIdentifying_iff (h : s.MadeBy r e a) (names : s.HasDistinctNames) :
    s.isIdentifying r = true ↔ a ∈ e.key := by
  simp only [isIdentifying, h.source_eq, names.entity?_eq h.mem_entities, List.any_eq_true,
    decide_eq_true_eq]
  constructor
  · rintro ⟨b, hb, hname, -⟩
    have hmem : b ∈ e.attributes := List.mem_append_left _ hb
    rwa [← List.inj_on_of_nodup_map (names.attributes e h.mem_entities) hmem h.mem_attributes hname]
  · intro hkey
    exact ⟨a, hkey, rfl, h.reference_eq⟩

end EntityDiagram.Schema
