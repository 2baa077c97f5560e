import EntityDiagram.Proofs.Schema.CycleSearch
import EntityDiagram.Proofs.Schema.References

/-! Well-formed schemas. The check for violations passes exactly the well-formed schemas, and the
violation that it reports in any other is there. -/
namespace EntityDiagram.Schema

/-- Names are distinct, every reference leads to an attribute, generalizations join entities, and no
entity is its own category, directly or through others. -/
structure IsWellFormed (s : Schema) : Prop where
  names : s.HasDistinctNames
  ends : s.HasRelationshipEnds
  generalized : ∀ g ∈ s.generalizations, ∀ name ∈ g.generic :: g.categories,
    name ∈ s.entities.map (·.name)
  acyclic : IsAcyclic s.HasCategory

/-- A schema has a violation. -/
def Shows (s : Schema) : Violation → Prop
  | .duplicateEntity name => 2 ≤ (s.entities.map (·.name)).count name
  | .duplicateAttribute entity name =>
    ∃ e ∈ s.entities, e.name = entity ∧ 2 ≤ (e.attributes.map (·.name)).count name
  | .unknownEntity name => name ∉ s.entities.map (·.name) ∧
    ∃ r ∈ s.relationships, name ∈ [r.source.entity, r.target.entity]
  | .missingAttribute reference => ¬ s.HasAttribute reference ∧
    reference.entity ∈ s.entities.map (·.name) ∧
      ∃ r ∈ s.relationships, reference ∈ [r.source, r.target]
  | .unknownGeneric generic => generic ∉ s.entities.map (·.name) ∧
    ∃ g ∈ s.generalizations, g.generic = generic
  | .unknownCategory generic category => category ∉ s.entities.map (·.name) ∧
    s.HasCategory generic category
  | .selfCategory name => s.HasCategory name name
  | .cycle names => IsCycle s.HasCategory names

variable {s : Schema} {violation : Violation}

/-- Between entities of a schema that no cycle joins, no generalization repeats its generic. -/
theorem forall_joinsEntities_iff (acyclic : IsAcyclic s.HasCategory) :
    (∀ g ∈ s.generalizations, s.JoinsEntities g) ↔
      ∀ g ∈ s.generalizations, ∀ name ∈ g.generic :: g.categories,
        name ∈ s.entities.map (·.name) := by
  apply forall₂_congr
  intro g hg
  constructor
  · intro h name hname
    rcases List.mem_cons.mp hname with rfl | hname
    · exact h.generic
    · exact (h.categories name hname).1
  · intro h
    refine ⟨h _ List.mem_cons_self, ?_⟩
    intro name hname
    refine ⟨h name (List.mem_cons_of_mem _ hname), ?_⟩
    rintro rfl
    exact acyclic g.generic (.single ⟨g, hg, rfl, hname⟩)

theorem violation?_eq_none_iff_isWellFormed (s : Schema) :
    s.violation? = none ↔ s.IsWellFormed := by
  rw [violation?_eq_none_iff, cycle?_eq_none_iff_isAcyclic]
  constructor
  · rintro ⟨names, ends, joins, acyclic⟩
    exact ⟨names, ends, (forall_joinsEntities_iff acyclic).mp joins, acyclic⟩
  · rintro ⟨names, ends, generalized, acyclic⟩
    exact ⟨names, ends, (forall_joinsEntities_iff acyclic).mpr generalized, acyclic⟩

theorem two_le_count_of_firstRepeat_eq_some {earlier names : List String} {name : String}
    (h : firstRepeat earlier names = some name) : 2 ≤ (earlier ++ names).count name := by
  induction names generalizing earlier with
  | nil => contradiction
  | cons first rest ih =>
    rw [firstRepeat] at h
    split_ifs at h with hfirst
    · cases h
      have := List.one_le_count_iff.mpr hfirst
      rw [List.count_append, List.count_cons_self]
      omega
    · have := ih h
      rwa [List.perm_middle.count_eq]

/-- A repeated name is that of two entities, or that of two attributes of one entity. -/
theorem repeatViolation?_cases {earlier : List String} {entities : List Entity}
    (h : repeatViolation? earlier entities = some violation) :
    (∃ name, violation = .duplicateEntity name ∧
        2 ≤ (earlier ++ entities.map (·.name)).count name) ∨
      ∃ e ∈ entities, ∃ name, violation = .duplicateAttribute e.name name ∧
        2 ≤ (e.attributes.map (·.name)).count name := by
  induction entities generalizing earlier with
  | nil => contradiction
  | cons e rest ih =>
    rw [repeatViolation?] at h
    split_ifs at h with he
    · cases h
      left
      have := List.one_le_count_iff.mpr he
      refine ⟨e.name, rfl, ?_⟩
      rw [List.count_append, List.map_cons, List.count_cons_self]
      omega
    · rcases Option.or_eq_some_iff.mp h with h | ⟨-, h⟩
      · obtain ⟨name, hname, rfl⟩ := Option.map_eq_some_iff.mp h
        exact .inr ⟨e, List.mem_cons_self, name, rfl, two_le_count_of_firstRepeat_eq_some hname⟩
      · rcases ih h with ⟨name, rfl, hcount⟩ | ⟨f, hf, hname⟩
        · left
          refine ⟨name, rfl, ?_⟩
          rwa [List.map_cons, List.perm_middle.count_eq]
        · exact .inr ⟨f, List.mem_cons_of_mem _ hf, hname⟩

theorem shows_of_repeatViolation?_eq_some (h : repeatViolation? [] s.entities = some violation) :
    s.Shows violation := by
  rcases repeatViolation?_cases h with ⟨name, rfl, hcount⟩ | ⟨e, he, name, rfl, hcount⟩
  · exact hcount
  · exact ⟨e, he, rfl, hcount⟩

theorem shows_of_referenceViolation?_eq_some (names : s.HasDistinctNames) {r : Relationship}
    (hr : r ∈ s.relationships) {reference : AttributeRef}
    (hend : reference ∈ [r.source, r.target])
    (h : s.referenceViolation? reference = some violation) : s.Shows violation := by
  have hmissing : ¬ s.HasAttribute reference := by
    rw [← names.referenceViolation?_eq_none_iff, h]
    simp
  unfold referenceViolation? at h
  split at h
  · rename_i hnone
    cases h
    refine ⟨?_, r, hr, ?_⟩
    · rw [← isSome_entity?_iff, hnone]
      simp
    · rcases List.mem_pair.mp hend with rfl | rfl <;> simp
  · rename_i e he
    split_ifs at h
    cases h
    refine ⟨hmissing, ?_, r, hr, hend⟩
    rw [← isSome_entity?_iff, he]
    rfl

theorem shows_of_generalizationViolation?_eq_some {g : Generalization}
    (hg : g ∈ s.generalizations) (h : s.generalizationViolation? g = some violation) :
    s.Shows violation := by
  have hunknown : ∀ name, (s.entity? name).isNone = true → name ∉ s.entities.map (·.name) := by
    intro name hname
    rw [← isSome_entity?_iff]
    simpa using hname
  unfold generalizationViolation? at h
  split_ifs at h with hgeneric
  · cases h
    exact ⟨hunknown _ hgeneric, g, hg, rfl⟩
  · obtain ⟨category, hcategory, h⟩ := List.exists_of_findSome?_eq_some h
    have hedge : s.HasCategory g.generic category := ⟨g, hg, rfl, hcategory⟩
    unfold categoryViolation? at h
    split_ifs at h with hnone hself
    · cases h
      exact ⟨hunknown _ hnone, hedge⟩
    · cases h
      exact hself ▸ hedge

/-- What is reported is there. -/
theorem shows_of_violation?_eq_some (h : s.violation? = some violation) : s.Shows violation := by
  rcases Option.or_eq_some_iff.mp h with h | ⟨hnames, h⟩
  · exact shows_of_repeatViolation?_eq_some h
  · have names := s.repeatViolation?_eq_none_iff_hasDistinctNames.mp hnames
    rcases Option.or_eq_some_iff.mp h with h | ⟨-, h⟩
    · obtain ⟨r, hr, h⟩ := List.exists_of_findSome?_eq_some h
      obtain ⟨reference, hend, h⟩ := List.exists_of_findSome?_eq_some h
      exact shows_of_referenceViolation?_eq_some names hr hend h
    · rcases Option.or_eq_some_iff.mp h with h | ⟨-, h⟩
      · obtain ⟨g, hg, h⟩ := List.exists_of_findSome?_eq_some h
        exact shows_of_generalizationViolation?_eq_some hg h
      · obtain ⟨cycle, hcycle, rfl⟩ := Option.map_eq_some_iff.mp h
        exact isCycle_of_cycle?_eq_some hcycle

/-- The check passes exactly the well-formed schemas, and in any other it reports a violation that
is there. -/
theorem violation?_decides_isWellFormed (s : Schema) :
    (s.violation? = none ↔ s.IsWellFormed) ∧
      (¬ s.IsWellFormed → ∃ violation, s.violation? = some violation ∧ s.Shows violation) := by
  refine ⟨s.violation?_eq_none_iff_isWellFormed, ?_⟩
  intro h
  rw [← violation?_eq_none_iff_isWellFormed] at h
  obtain ⟨violation, hviolation⟩ := Option.ne_none_iff_exists'.mp h
  exact ⟨violation, hviolation, shows_of_violation?_eq_some hviolation⟩

/-- All names are known, but two entities are categories of each other. -/
theorem violation?_decides_isWellFormed_of_two_step_cycle :
    let s : Schema := ⟨[⟨"A", [], []⟩, ⟨"B", [], []⟩], [],
      [⟨"A", ["B"], false, none⟩, ⟨"B", ["A"], false, none⟩]⟩
    ¬ s.IsWellFormed ∧ s.violation? = some (.cycle ["A", "B", "A"]) ∧
      s.Shows (.cycle ["A", "B", "A"]) := by
  intro s
  have hcycle : s.violation? = some (.cycle ["A", "B", "A"]) := by decide
  have hnot : ¬ s.IsWellFormed := by
    intro h
    rw [s.violation?_decides_isWellFormed.1.mpr h] at hcycle
    contradiction
  obtain ⟨violation, hviolation, hshows⟩ := s.violation?_decides_isWellFormed.2 hnot
  rw [hcycle] at hviolation
  cases hviolation
  exact ⟨hnot, hcycle, hshows⟩

end EntityDiagram.Schema
