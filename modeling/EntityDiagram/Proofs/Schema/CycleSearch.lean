import EntityDiagram.Proofs.Network.Exploration
import EntityDiagram.Proofs.Schema.Cycles

/-! The search for cycles of generalizations, sound and complete. It comes to an end in every
schema, whatever its names are names of; it finds a cycle exactly when there is one, and what it
finds is one. -/
namespace EntityDiagram.Schema

/-- Some generalization makes the second name a category of the first. -/
def HasCategory (s : Schema) (generic category : String) : Prop :=
  ∃ g ∈ s.generalizations, g.generic = generic ∧ category ∈ g.categories

variable {s : Schema}

theorem mem_categoriesOf (s : Schema) :
    (fun generic category => category ∈ s.categoriesOf generic) = s.HasCategory := by
  funext generic category
  exact propext mem_categoriesOf_iff

theorem cycle?_eq_none_iff_isAcyclic (s : Schema) :
    s.cycle? = none ↔ IsAcyclic s.HasCategory := by
  rw [cycle?_eq_none_iff, mem_categoriesOf]

/-- The search through all categories comes to exactly one outcome, which shows the cycle that is
found. -/
theorem exists_explores (s : Schema) : ∃ outcome,
    (∀ other, Explores s.categoriesOf [] [] (s.generalizations.map (·.generic)) other ↔
      other = outcome) ∧ s.cycle? = outcome.cycle? :=
  DepthFirst.exists_explores_run s.categoriesOf_subset s.generics_subset

theorem isCycle_of_cycle?_eq_some {names : List String} (h : s.cycle? = some names) :
    IsCycle s.HasCategory names := by
  obtain ⟨outcome, hexplores, hcycle⟩ := s.exists_explores
  rw [← mem_categoriesOf]
  exact ((hexplores outcome).mpr rfl).isCycle (hcycle ▸ h)

/-- The search for a cycle ends, with one outcome; it finds none exactly when no name is a category
of itself, directly or through others; and what it finds is a cycle. -/
theorem cycle?_finds_cycles (s : Schema) :
    (∃ outcome,
      (∀ other, Explores s.categoriesOf [] [] (s.generalizations.map (·.generic)) other ↔
        other = outcome) ∧ s.cycle? = outcome.cycle?) ∧
    (s.cycle? = none ↔ ∀ name, ¬ Relation.TransGen s.HasCategory name name) ∧
    ∀ names, s.cycle? = some names →
      2 ≤ names.length ∧ names.head? = names.getLast? ∧ names.dropLast.Nodup ∧
        List.IsChain s.HasCategory names := by
  refine ⟨s.exists_explores, s.cycle?_eq_none_iff_isAcyclic, ?_⟩
  intro names hnames
  have hcycle := isCycle_of_cycle?_eq_some hnames
  exact ⟨hcycle.two_le_length, hcycle.returns, hcycle.nodup, hcycle.chain⟩

/-- Categories that are met again without a cycle, and then a cycle through generalizations of one
generic that stand apart; no name is that of an entity. -/
theorem cycle?_finds_cycles_of_split_generic :
    let s : Schema := ⟨[], [], [⟨"A", ["B", "C"], false, none⟩, ⟨"B", ["D"], false, none⟩,
      ⟨"C", ["D"], true, none⟩, ⟨"D", ["E"], false, none⟩, ⟨"B", ["C"], false, none⟩,
      ⟨"D", ["C", "D"], false, some "kind"⟩]⟩
    s.cycle? = some ["D", "C", "D"] ∧ IsCycle s.HasCategory ["D", "C", "D"] := by
  intro s
  have h : s.cycle? = some ["D", "C", "D"] := by decide
  obtain ⟨hlength, hreturns, hnodup, hchain⟩ := s.cycle?_finds_cycles.2.2 _ h
  exact ⟨h, hlength, hreturns, hnodup, hchain⟩

end EntityDiagram.Schema
