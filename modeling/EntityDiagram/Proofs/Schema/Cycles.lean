import EntityDiagram.Schema.Cycle
import EntityDiagram.Proofs.Network.Acyclic

/-! What the search for cycles of generalizations finds. It finds one exactly when some entity is a
category of itself, directly or through others, and the cycle that it finds begins with the generic
entity of a generalization. -/
namespace EntityDiagram.Schema

variable {s t : Schema}

theorem mem_categoriesOf_iff {generic category : String} : category ∈ s.categoriesOf generic ↔
    ∃ g ∈ s.generalizations, g.generic = generic ∧ category ∈ g.categories := by
  simp [categoriesOf, and_assoc]

/-- A cycle that is found begins with a generic entity. -/
theorem exists_generalization_of_cycle?_eq_some {names : List String}
    (h : s.cycle? = some names) :
    ∃ g ∈ s.generalizations, names.head? = some g.generic := by
  obtain ⟨c, hc, rfl⟩ := Option.map_eq_some_iff.mp h
  obtain ⟨category, hcategory⟩ :=
    (DepthFirst.isBackEdge_of_mem_run c (List.mem_of_mem_head? hc)).exists_successor
  obtain ⟨g, hg, hgeneric, -⟩ := mem_categoriesOf_iff.mp hcategory
  exact ⟨g, hg, by simp [Closing.cycle, hgeneric]⟩

theorem categoriesOf_subset (s : Schema) :
    ∀ generic ∈ s.generalizationNames, s.categoriesOf generic ⊆ s.generalizationNames := by
  intro generic _ category hcategory
  obtain ⟨g, hg, -, hmem⟩ := mem_categoriesOf_iff.mp hcategory
  exact List.mem_flatMap.mpr ⟨g, hg, List.mem_cons_of_mem _ hmem⟩

theorem generics_subset (s : Schema) :
    s.generalizations.map (·.generic) ⊆ s.generalizationNames := by
  intro generic hgeneric
  obtain ⟨g, hg, rfl⟩ := List.mem_map.mp hgeneric
  exact List.mem_flatMap.mpr ⟨g, hg, List.mem_cons_self⟩

/-- The search finds no cycle exactly when there is none. -/
theorem cycle?_eq_none_iff (s : Schema) :
    s.cycle? = none ↔ IsAcyclic fun generic category => category ∈ s.categoriesOf generic := by
  have hsearch : s.cycle? = none ↔ (DepthFirst.run s.generalizationNames s.categoriesOf
      (s.generalizations.map (·.generic))).closings = [] := by simp [cycle?]
  rw [hsearch]
  apply DepthFirst.closings_run_eq_nil_iff s.categoriesOf_subset s.generics_subset
  intro generic category hcategory
  obtain ⟨g, hg, rfl, -⟩ := mem_categoriesOf_iff.mp hcategory
  exact List.mem_map_of_mem hg

/-- Whether there is a cycle does not depend on the order of the generalizations. -/
theorem cycle?_eq_none_congr
    (h : ∀ g, g ∈ s.generalizations ↔ g ∈ t.generalizations) :
    s.cycle? = none ↔ t.cycle? = none := by
  have hsame : ∀ generic category,
      category ∈ s.categoriesOf generic ↔ category ∈ t.categoriesOf generic := by
    intro generic category
    simp only [mem_categoriesOf_iff, h]
  simp only [cycle?_eq_none_iff, hsame]

end EntityDiagram.Schema
