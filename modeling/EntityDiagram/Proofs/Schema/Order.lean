import EntityDiagram.Proofs.Schema.Cycles
import EntityDiagram.Proofs.Schema.References

/-! The order of declarations in a schema. Two schemas that declare the same in different orders are
both valid or both not. -/
namespace EntityDiagram.Schema

/-- One schema after the other. -/
def append (s t : Schema) : Schema :=
  ⟨s.entities ++ t.entities, s.relationships ++ t.relationships,
    s.generalizations ++ t.generalizations⟩

instance : Append Schema := ⟨append⟩

theorem HasDistinctNames.append_iff {s t : Schema} (hs : s.HasDistinctNames)
    (ht : t.HasDistinctNames) : (s ++ t).HasDistinctNames ↔
      (s.entities.map (·.name)).Disjoint (t.entities.map (·.name)) := by
  have hnames : (s ++ t).entities.map (·.name) =
      s.entities.map (·.name) ++ t.entities.map (·.name) := List.map_append
  constructor
  · intro h
    have hnodup := h.entities
    rw [hnames, List.nodup_append'] at hnodup
    exact hnodup.2.2
  · intro hdisjoint
    refine ⟨?_, ?_⟩
    · rw [hnames, List.nodup_append']
      exact ⟨hs.entities, ht.entities, hdisjoint⟩
    · intro e he
      rcases List.mem_append.mp he with he | he
      · exact hs.attributes e he
      · exact ht.attributes e he

/-- One schema declares the same as the other, in any order. -/
structure Reorders (s t : Schema) : Prop where
  entities : s.entities.Perm t.entities
  relationships : s.relationships.Perm t.relationships
  generalizations : s.generalizations.Perm t.generalizations

variable {s t : Schema}

theorem Reorders.symm (h : s.Reorders t) : t.Reorders s :=
  ⟨h.entities.symm, h.relationships.symm, h.generalizations.symm⟩

theorem reorders_append_comm (s t : Schema) : (s ++ t).Reorders (t ++ s) :=
  ⟨List.perm_append_comm, List.perm_append_comm, List.perm_append_comm⟩

theorem Reorders.mem_names_iff (h : s.Reorders t) {name : String} :
    name ∈ s.entities.map (·.name) ↔ name ∈ t.entities.map (·.name) :=
  (h.entities.map _).mem_iff

theorem Reorders.hasDistinctNames (h : s.Reorders t) (names : s.HasDistinctNames) :
    t.HasDistinctNames := by
  refine ⟨(h.entities.map _).nodup_iff.mp names.entities, ?_⟩
  intro e he
  exact names.attributes e (h.entities.mem_iff.mpr he)

theorem Reorders.hasAttribute (h : s.Reorders t) {r : AttributeRef} (hr : s.HasAttribute r) :
    t.HasAttribute r := by
  obtain ⟨e, he, a, ha, rfl⟩ := hr
  exact ⟨e, h.entities.mem_iff.mp he, a, ha, rfl⟩

theorem Reorders.joinsEntities (h : s.Reorders t) {g : Generalization} (hg : s.JoinsEntities g) :
    t.JoinsEntities g := by
  refine ⟨h.mem_names_iff.mp hg.generic, ?_⟩
  intro name hname
  exact ⟨h.mem_names_iff.mp (hg.categories name hname).1, (hg.categories name hname).2⟩

theorem Reorders.violation?_eq_none (h : s.Reorders t) (hs : s.violation? = none) :
    t.violation? = none := by
  obtain ⟨names, ends, joins, acyclic⟩ := s.violation?_eq_none_iff.mp hs
  refine t.violation?_eq_none_iff.mpr ⟨h.hasDistinctNames names, ?_, ?_, ?_⟩
  · intro r hr
    obtain ⟨hsource, htarget⟩ := ends r (h.relationships.mem_iff.mpr hr)
    exact ⟨h.hasAttribute hsource, h.hasAttribute htarget⟩
  · intro g hg
    exact h.joinsEntities (joins g (h.generalizations.mem_iff.mpr hg))
  · exact (cycle?_eq_none_congr fun g => h.generalizations.mem_iff).mp acyclic

/-- Whether a schema is valid does not depend on the order of its declarations. -/
theorem Reorders.violation?_eq_none_iff (h : s.Reorders t) :
    s.violation? = none ↔ t.violation? = none :=
  ⟨h.violation?_eq_none, h.symm.violation?_eq_none⟩

end EntityDiagram.Schema
