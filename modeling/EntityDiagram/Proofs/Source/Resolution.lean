import EntityDiagram.Proofs.Source.Blocks

/-! Following the references of a source against judging the schema that it declares. Reading blocks
leaves no violation but those of references, so both find the same violation first, or none. -/
namespace EntityDiagram.Source

/-- The violation that an error reports. -/
def SourceError.violation? : SourceError → Option Violation
  | invalid violation _ => some violation
  | _ => none

/-- A check of located values reports what it finds in the values alone. -/
theorem map_violation?_findSome? {β γ : Type} (l : List β) (value : β → γ) (line : β → Nat)
    (check : γ → Option Violation) :
    (l.findSome? fun b => (check (value b)).map (.invalid · (some (line b)))).map
      SourceError.violation? = ((l.map value).findSome? check).map some := by
  induction l with
  | nil => rfl
  | cons b rest ih =>
    rw [List.findSome?_cons, List.map_cons, List.findSome?_cons]
    cases check (value b) with
    | none => exact ih
    | some violation => rfl

/-- Where every relationship starts at an attribute, only their targets can be at fault. -/
theorem findSome?_ends_eq {s : Schema} (names : s.HasDistinctNames)
    (sources : ∀ r ∈ s.relationships, s.HasAttribute r.source) :
    (s.relationships.findSome? fun r => [r.source, r.target].findSome? s.referenceViolation?) =
      s.relationships.findSome? fun r => s.referenceViolation? r.target := by
  generalize s.relationships = relationships at sources
  induction relationships with
  | nil => rfl
  | cons r rest ih =>
    have hsource := (names.referenceViolation?_eq_none_iff r.source).mpr (sources r (by simp))
    have hrest := ih fun r hr => sources r (List.mem_cons_of_mem _ hr)
    cases htarget : s.referenceViolation? r.target with
    | none => simpa [List.findSome?_cons, hsource, htarget] using hrest
    | some violation => simp [List.findSome?_cons, hsource, htarget]

theorem map_violation?_cycleError? (s : Schema) (generalizations : List GeneralizationBlock) :
    (cycleError? s generalizations).map SourceError.violation? =
      (s.cycle?.map Violation.cycle).map some := by
  unfold cycleError?
  cases s.cycle? <;> rfl

/-- The first reference of the blocks that leads nowhere is the first violation of their schema. -/
theorem map_violation?_referenceError? {blocks : List Block}
    (names : (Block.schema blocks).HasDistinctNames) :
    (referenceError? blocks).map SourceError.violation? =
      (Block.schema blocks).violation?.map some := by
  have hsources : ∀ r ∈ (Block.schema blocks).relationships,
      (Block.schema blocks).HasAttribute r.source := by
    intro r hr
    obtain ⟨e, a, h⟩ := Block.exists_madeBy hr
    exact h.hasAttribute
  have htargets : ((Block.relationships blocks).findSome?
      (targetError? (Block.schema blocks))).map SourceError.violation? =
        ((Block.schema blocks).relationships.findSome? fun r =>
          (Block.schema blocks).referenceViolation? r.target).map some :=
    map_violation?_findSome? (Block.relationships blocks) (·.value) (·.line) fun r =>
      (Block.schema blocks).referenceViolation? r.target
  have hgeneralizations : ((blocks.filterMap Block.generalization?).findSome?
      (generalizationError? (Block.schema blocks))).map SourceError.violation? =
        ((Block.schema blocks).generalizations.findSome?
          (Block.schema blocks).generalizationViolation?).map some :=
    map_violation?_findSome? (blocks.filterMap Block.generalization?) (·.generalization) (·.line) _
  have hrepeats := ((Block.schema blocks).repeatViolation?_eq_none_iff_hasDistinctNames).mpr names
  rw [referenceError?, Option.map_or, Option.map_or, htargets, hgeneralizations,
    map_violation?_cycleError?, Schema.violation?, hrepeats, findSome?_ends_eq names hsources,
    Option.none_or, Option.map_or, Option.map_or]

/-- Following the references of blocks ends without an error and without a violation, or with an
error that reports the first violation. -/
theorem resolve_cases {blocks : List Block} (names : (Block.schema blocks).HasDistinctNames) :
    (resolve blocks = .ok ⟨Block.schema blocks, Block.duplicateCategories blocks⟩ ∧
      (Block.schema blocks).violation? = none) ∨
    ∃ violation line, resolve blocks = .error (.invalid violation line) ∧
      (Block.schema blocks).violation? = some violation := by
  have hsame := map_violation?_referenceError? names
  cases herror : referenceError? blocks with
  | none =>
    left
    rw [herror] at hsame
    exact ⟨by rw [resolve, herror], by simpa using hsame.symm⟩
  | some error =>
    right
    rw [herror] at hsame
    obtain ⟨violation, hviolation, hreported⟩ := Option.map_eq_some_iff.mp hsame.symm
    cases error with
    | invalid found line =>
      cases hreported
      exact ⟨violation, line, by rw [resolve, herror], hviolation⟩
    | malformed fault => cases hreported
    | redeclared name first line => cases hreported

/-- A source is accepted exactly when its lines form blocks whose schema has no violation. -/
theorem parse_eq_ok_iff (source : String) (document : Document) :
    parse source = .ok document ↔ ∃ blocks,
      Context.outside.scan (significantLines source.toList) = ⟨blocks, none⟩ ∧
        (Block.schema blocks).violation? = none ∧
          document = ⟨Block.schema blocks, Block.duplicateCategories blocks⟩ := by
  constructor
  · intro h
    cases hblocks : readBlocks source.toList with
    | error error =>
      rw [parse, hblocks] at h
      contradiction
    | ok blocks =>
      obtain ⟨hscan, names⟩ := (readBlocks_eq_ok_iff _ _).mp hblocks
      have h : resolve blocks = .ok document := by rwa [parse, hblocks] at h
      obtain ⟨hok, hnone⟩ | ⟨violation, line, herror, -⟩ := resolve_cases names
      · rw [hok] at h
        exact ⟨blocks, hscan, hnone, (Except.ok.inj h).symm⟩
      · rw [herror] at h
        contradiction
  · rintro ⟨blocks, hscan, hnone, rfl⟩
    have names := ((Block.schema blocks).violation?_eq_none_iff.mp hnone).1
    rw [parse, (readBlocks_eq_ok_iff _ _).mpr ⟨hscan, names⟩]
    obtain ⟨hok, -⟩ | ⟨violation, line, -, hsome⟩ := resolve_cases names
    · exact hok
    · rw [hnone] at hsome
      contradiction

/-- Once the blocks of a source are read, following their references fails exactly when their schema
has a violation, and then with that violation and its name. So every schema that a source yields is
free of violations. -/
theorem resolve_agrees_with_violation? (source : String) :
    (∀ blocks, readBlocks source.toList = .ok blocks →
      ((∃ error, resolve blocks = .error error) ↔
        ∃ violation, (Block.schema blocks).violation? = some violation) ∧
      ∀ error violation, resolve blocks = .error error →
        (Block.schema blocks).violation? = some violation →
          (∃ line, error = .invalid violation line) ∧ error.near = violation.token) ∧
    ∀ document, parse source = .ok document → document.schema.violation? = none := by
  refine ⟨?_, ?_⟩
  · intro blocks hblocks
    have names := ((readBlocks_eq_ok_iff _ _).mp hblocks).2
    obtain ⟨hok, hnone⟩ | ⟨violation, line, herror, hsome⟩ := resolve_cases names
    · simp [hok, hnone]
    · simp [herror, hsome, SourceError.near]
  · intro document h
    obtain ⟨blocks, -, hnone, rfl⟩ := (parse_eq_ok_iff source document).mp h
    exact hnone

/-- A category that is not declared, found after the blocks are read. -/
theorem resolve_agrees_with_violation?_of_undeclared :
    ∃ blocks, readBlocks "Generalization A \x7b B \x7d\nEntity A \x7b \x7d".toList = .ok blocks ∧
      ∃ violation, (Block.schema blocks).violation? = some violation := by
  have hblocks : readBlocks "Generalization A \x7b B \x7d\nEntity A \x7b \x7d".toList =
      .ok [.generalization ⟨"A", 1, [⟨1, "B"⟩], none, none⟩, .entity ⟨"A", 2, []⟩] := by
    decide +kernel
  have herror : resolve [.generalization ⟨"A", 1, [⟨1, "B"⟩], none, none⟩, .entity ⟨"A", 2, []⟩] =
      .error (.invalid (.unknownCategory "A" "B") (some 1)) := by
    decide +kernel
  exact ⟨_, hblocks, ((resolve_agrees_with_violation? _).1 _ hblocks).1.mp ⟨_, herror⟩⟩

end EntityDiagram.Source
