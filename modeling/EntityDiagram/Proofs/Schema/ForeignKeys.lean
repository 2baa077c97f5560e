import EntityDiagram.Proofs.Schema.References
import Mathlib.Data.List.Perm.Basic

/-! Relationships as the mirror of foreign keys. The relationships of a schema stand entity by
entity; within an entity those of its primary key, and those of its other attributes, follow the
order of the attributes. -/
namespace EntityDiagram

/-- Where a relationship begins and ends, whatever its label. -/
def Relationship.ends (r : Relationship) : AttributeRef × AttributeRef := (r.source, r.target)

/-- Whether a relationship begins at one of some attributes. -/
def Relationship.startsIn (r : Relationship) (attributes : List Attribute) : Bool :=
  attributes.any (·.name = r.source.name)

/-- The ends of the relationships that the foreign keys among some attributes of an entity ask
for. -/
def Entity.foreignKeys (e : Entity) (attributes : List Attribute) :
    List (AttributeRef × AttributeRef) :=
  attributes.filterMap fun a => a.reference.map fun target => (⟨e.name, a.name⟩, target)

theorem Entity.mem_foreignKeys_iff {e : Entity} {attributes : List Attribute}
    {ends : AttributeRef × AttributeRef} : ends ∈ e.foreignKeys attributes ↔
      ∃ a ∈ attributes, ends.1 = ⟨e.name, a.name⟩ ∧ a.reference = some ends.2 := by
  obtain ⟨source, target⟩ := ends
  simp only [foreignKeys, List.mem_filterMap, Option.map_eq_some_iff, Prod.mk.injEq]
  grind

/-- Every attribute asks for one relationship at most. -/
lemma Entity.sources_sublist (e : Entity) (attributes : List Attribute) :
    ((e.foreignKeys attributes).map (·.1)).Sublist
      (attributes.map fun a => ⟨e.name, a.name⟩) := by
  induction attributes with
  | nil => exact List.Sublist.slnil
  | cons a rest ih =>
    cases hreference : a.reference with
    | none => simpa [foreignKeys, hreference] using ih.cons _
    | some target => simpa [foreignKeys, hreference] using ih

namespace Schema

/-- The relationships that begin in an entity. -/
def relationshipsOf (s : Schema) (e : Entity) : List Relationship :=
  s.relationships.filter (·.source.entity = e.name)

/-- Relationships stand entity by entity, and those of an entity are exactly what its foreign keys
ask for, inside the primary key and outside it. -/
structure MirrorsForeignKeys (s : Schema) : Prop where
  grouped : s.relationships = s.entities.flatMap s.relationshipsOf
  inKey : ∀ e ∈ s.entities,
    ((s.relationshipsOf e).filter (·.startsIn e.key)).map (·.ends) = e.foreignKeys e.key
  outsideKey : ∀ e ∈ s.entities,
    ((s.relationshipsOf e).filter (!·.startsIn e.key)).map (·.ends) = e.foreignKeys e.others

variable {s : Schema}

theorem MirrorsForeignKeys.ends_perm (h : s.MirrorsForeignKeys) {e : Entity}
    (he : e ∈ s.entities) :
    ((s.relationshipsOf e).map (·.ends)).Perm (e.foreignKeys e.attributes) := by
  have hsplit := (List.filter_append_perm (·.startsIn e.key) (s.relationshipsOf e)).map (·.ends)
  rw [List.map_append, h.inKey e he, h.outsideKey e he] at hsplit
  rw [Entity.foreignKeys, Entity.attributes, List.filterMap_append]
  exact hsplit.symm

theorem MirrorsForeignKeys.exists_madeBy (h : s.MirrorsForeignKeys) {r : Relationship}
    (hr : r ∈ s.relationships) : ∃ e a, s.MadeBy r e a := by
  rw [h.grouped, List.mem_flatMap] at hr
  obtain ⟨e, he, hr⟩ := hr
  have hends := (h.ends_perm he).mem_iff.mp (List.mem_map_of_mem hr)
  obtain ⟨a, ha, hsource, hreference⟩ := Entity.mem_foreignKeys_iff.mp hends
  exact ⟨e, a, he, ha, hsource, hreference⟩

/-- No attribute makes two relationships. -/
theorem MirrorsForeignKeys.nodup_sources (h : s.MirrorsForeignKeys) (names : s.HasDistinctNames) :
    (s.relationships.map (·.source)).Nodup := by
  rw [h.grouped, List.map_flatMap, List.nodup_flatMap]
  constructor
  · intro e he
    have hperm := (h.ends_perm he).map (·.1)
    rw [List.map_map] at hperm
    apply hperm.nodup_iff.mpr
    apply (e.sources_sublist e.attributes).nodup
    have hinjective : Function.Injective fun name => (⟨e.name, name⟩ : AttributeRef) := by
      intro a b hab
      exact congrArg AttributeRef.name hab
    have hnodup := (names.attributes e he).map hinjective
    rwa [List.map_map] at hnodup
  · apply (List.pairwise_map.mp names.entities).imp
    intro e f hne
    apply List.disjoint_left.mpr
    intro source he hf
    apply hne
    simp only [relationshipsOf, List.mem_map, List.mem_filter, decide_eq_true_eq] at he hf
    obtain ⟨r, ⟨-, hre⟩, rfl⟩ := he
    obtain ⟨q, ⟨-, hqf⟩, hq⟩ := hf
    rw [← hre, ← hqf, hq]

/-- The same schema with the relationships of each entity in the order of its attributes, those of
the primary key first. -/
def keysFirst (s : Schema) : Schema :=
  { s with
    relationships := s.entities.flatMap fun e =>
      (s.relationshipsOf e).filter (·.startsIn e.key) ++
        (s.relationshipsOf e).filter (!·.startsIn e.key) }

/-- Only relationships of one entity change places. -/
theorem MirrorsForeignKeys.keysFirst_perm (h : s.MirrorsForeignKeys) :
    s.keysFirst.relationships.Perm s.relationships := by
  rw [h.grouped, keysFirst]
  exact List.Perm.flatMap_left _ fun e _ => List.filter_append_perm _ _

/-- The order of relationships makes no violation. -/
theorem MirrorsForeignKeys.violation?_keysFirst (h : s.MirrorsForeignKeys)
    (valid : s.violation? = none) : s.keysFirst.violation? = none := by
  obtain ⟨names, ends, joins, acyclic⟩ := s.violation?_eq_none_iff.mp valid
  have hnames : s.keysFirst.HasDistinctNames := ⟨names.entities, names.attributes⟩
  refine s.keysFirst.violation?_eq_none_iff.mpr ⟨hnames, ?_, ?_, acyclic⟩
  · intro r hr
    exact ends r (h.keysFirst_perm.mem_iff.mp hr)
  · intro g hg
    exact ⟨(joins g hg).generic, (joins g hg).categories⟩

end Schema

end EntityDiagram
