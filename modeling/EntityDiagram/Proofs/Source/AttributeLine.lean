import EntityDiagram.Proofs.Source.AttributeGrammar

/-! What an attribute line that is read can contain. Its type is trimmed, holds no brace and neither
`FK` as a word nor an arrow; its names are words, and its label holds no quote. -/
namespace EntityDiagram.Source

open Text

/-- The type of an attribute as it can be declared. -/
structure IsType (t : List Char) : Prop where
  ne_nil : t ≠ []
  starts : StartsNonblank t
  ends : EndsNonblank t
  onOneLine : OnOneLine t
  keyFree : hasKeyFragment t = false
  braceFree : hasBrace t = false

/-- A label as it can be written; it stays inside its quotes. -/
structure IsQuotable (t : List Char) : Prop where
  onOneLine : OnOneLine t
  quoteFree : '"' ∉ t

/-- A foreign key as it can be written. -/
structure ForeignKey.IsPrintable (k : ForeignKey) : Prop where
  entity : isName k.entity = true
  name : isName k.name = true
  label : ∀ l ∈ k.label, IsQuotable l

variable {t : List Char}

theorem isType_iff : IsType t ↔ IsFreeText t ∧ OnOneLine t := by
  rw [isFreeText_iff]
  constructor
  · intro h
    exact ⟨⟨h.ne_nil, h.starts, h.ends, h.keyFree, h.braceFree⟩, h.onOneLine⟩
  · rintro ⟨⟨hne, hstarts, hends, hkey, hbrace⟩, hline⟩
    exact ⟨hne, hstarts, hends, hline, hkey, hbrace⟩

theorem LabelClause.isQuotable {label : Option (List Char)} (h : LabelClause t label)
    (ht : OnOneLine t) : ∀ l ∈ label, IsQuotable l := by
  cases h with
  | absent => simp
  | @quoted gap label blank ne_nil quoteFree =>
    intro l hl
    cases hl
    have hlabel := (onOneLine_cons.mp (onOneLine_append.mp ht).2).2
    exact ⟨(onOneLine_append.mp hlabel).1, quoteFree⟩

theorem KeyClause.isPrintable {k : ForeignKey} (h : KeyClause t k) (ht : OnOneLine t) :
    k.IsPrintable := by
  cases h with
  | key ne_nil blank₁ blank₂ blank₃ entity_isName blank₄ blank₅ name_isName labelled =>
    simp only [onOneLine_append] at ht
    exact ⟨entity_isName, name_isName, labelled.isQuotable (by tauto)⟩

/-- An attribute as it can be declared. -/
structure IsDeclarable (a : Attribute) : Prop where
  name : isName a.name.toList = true
  type : IsType a.type.toList
  reference : ∀ r ∈ a.reference, isName r.entity.toList = true ∧ isName r.name.toList = true

/-- A label that is not empty stands behind a foreign key. -/
structure Declaration.IsPrintable (d : Declaration) : Prop where
  content : IsDeclarable d.content
  label : ∀ l ∈ d.label, l ≠ "" ∧ IsQuotable l.toList
  labelled : d.label.isSome → d.content.reference.isSome

theorem ForeignKey.IsPrintable.labelText? {k : ForeignKey} (h : k.IsPrintable) {l : String}
    (hl : l ∈ k.labelText?) : l ≠ "" ∧ IsQuotable l.toList := by
  rw [k.labelText?_eq] at hl
  obtain ⟨text, htext, rfl⟩ := Option.map_eq_some_iff.mp hl
  obtain ⟨htext, hne⟩ := Option.filter_eq_some_iff.mp htext
  rw [nameOf, String.toList_ofList]
  refine ⟨?_, h.label text htext⟩
  intro hempty
  have hnil : text = [] := by simpa using congrArg String.toList hempty
  simp [hnil] at hne

/-- Every attribute that is read can be declared so. -/
theorem isPrintable_of_readAttribute {line : Line} {d : Located Declaration}
    (h : readAttribute line = .ok d) (hline : OnOneLine line.text)
    (hend : EndsNonblank line.text) : d.value.IsPrintable := by
  obtain ⟨a, ha, rfl⟩ := exists_attributeGrammar_of_readAttribute h hend
  generalize line.text = t at ha hline
  cases ha with
  | @line front name gap₁ gap₂ type clause key marked name_isName blank₁ blank₂ typed keyed =>
    simp only [onOneLine_append] at hline
    obtain ⟨-, -, -, -, -, htype, hclause⟩ := hline
    have hprintable : ∀ k ∈ key, k.IsPrintable := by
      intro k hk
      cases keyed with
      | absent => contradiction
      | present keyed =>
        cases hk
        exact keyed.isPrintable hclause
    refine ⟨⟨by simpa [AttributeLine.declaration, nameOf] using name_isName, ?_, ?_⟩, ?_, ?_⟩
    · simpa [AttributeLine.declaration] using isType_iff.mpr ⟨typed, htype⟩
    · intro r hr
      obtain ⟨k, hk, rfl⟩ := Option.map_eq_some_iff.mp hr
      have hk := hprintable k hk
      simpa [ForeignKey.reference, nameOf] using ⟨hk.entity, hk.name⟩
    · intro l hl
      obtain ⟨k, hk, hl⟩ := Option.bind_eq_some_iff.mp hl
      exact (hprintable k hk).labelText? hl
    · intro hsome
      obtain ⟨l, hl⟩ := Option.isSome_iff_exists.mp hsome
      obtain ⟨k, rfl, -⟩ := Option.bind_eq_some_iff.mp hl
      rfl

end EntityDiagram.Source
