import EntityDiagram.Proofs.Source.AttributeText
import EntityDiagram.Proofs.Schema.ForeignKeys
import EntityDiagram.Proofs.Source.Printable

/-! Lines of a canonical source. Each is a significant line without outer blanks, so the lines of
the text are read exactly as they were written. -/
namespace EntityDiagram.Source

open Text

/-- A line that is read as it stands. -/
structure IsLine (t : List Char) : Prop where
  onOneLine : OnOneLine t
  starts : StartsNonblank t
  ends : EndsNonblank t
  significant : isSignificant t = true

theorem numbered_cons_of_isLine {t : List Char} (h : IsLine t) (n : Nat) (rest : List (List Char)) :
    numbered n (t :: rest) = ⟨n, t⟩ :: numbered (n + 1) rest := by
  simp [numbered, strip_eq_self h.starts h.ends, h.significant]

theorem isSignificant_cons {c : Char} {t : List Char} (hslash : c ≠ '/') (hsign : c ≠ '#') :
    isSignificant (c :: t) = true := by
  simp only [isSignificant, List.isEmpty_cons, Bool.not_false, Bool.true_and, Bool.not_eq_true']
  unfold isComment
  split <;> simp_all

/-- The beginning of a line that is no comment. -/
def BeginsLine (t : List Char) : Prop :=
  ∃ c rest, t = c :: rest ∧ isBlank c = false ∧ c ≠ '/' ∧ c ≠ '#'

variable {t : List Char}

theorem BeginsLine.append (h : BeginsLine t) (u : List Char) : BeginsLine (t ++ u) := by
  obtain ⟨c, rest, rfl, hc⟩ := h
  exact ⟨c, rest ++ u, rfl, hc⟩

theorem isLine_of_beginsLine (h : BeginsLine t) (hflat : OnOneLine t) (hends : EndsNonblank t) :
    IsLine t := by
  obtain ⟨c, rest, rfl, hc, hslash, hsign⟩ := h
  exact ⟨hflat, startsNonblank_cons.mpr hc, hends, isSignificant_cons hslash hsign⟩

theorem beginsLine_of_isName (h : isName t = true) : BeginsLine t := by
  obtain ⟨hne, hall⟩ := isName_iff.mp h
  obtain ⟨c, rest, rfl⟩ := List.exists_cons_of_ne_nil hne
  have hc : isWordChar c = true := hall c List.mem_cons_self
  refine ⟨c, rest, rfl, isBlank_eq_false hc, ?_, ?_⟩
  · rintro rfl
    exact absurd hc (by decide)
  · rintro rfl
    exact absurd hc (by decide)

theorem isLine_of_isName (h : isName t = true) : IsLine t :=
  isLine_of_beginsLine (beginsLine_of_isName h) (isName.onOneLine h) (isName.endsNonblank h)

theorem headerText_eq (keyword : List Char) (name : String) :
    headerText keyword name = keyword ++ (' ' :: (name.toList ++ [' ', '\x7b'])) := by
  simp [headerText]

theorem isLine_headerText {keyword : List Char} {name : String} (hkeyword : isName keyword = true)
    (hname : isName name.toList = true) : IsLine (headerText keyword name) := by
  rw [headerText_eq]
  apply isLine_of_beginsLine ((beginsLine_of_isName hkeyword).append _)
  · refine onOneLine_append.mpr ⟨isName.onOneLine hkeyword, onOneLine_cons.mpr ⟨by decide, ?_⟩⟩
    exact onOneLine_append.mpr ⟨isName.onOneLine hname, onOneLine_of_all (by decide)⟩
  · have hends : EndsNonblank (name.toList ++ [' '] ++ ['\x7b']) :=
      endsNonblank_append_singleton.mpr (by decide)
    rw [← List.singleton_append, ← List.append_assoc]
    exact endsNonblank_append_of_ne_nil (by simp) (by simpa using hends)

theorem isLine_closeBrace : IsLine ['\x7d'] :=
  isLine_of_beginsLine ⟨'\x7d', [], rfl, by decide⟩ (onOneLine_of_all (by decide))
    (endsNonblank_append_singleton (t := []).mpr (by decide))

theorem onOneLine_labelText {label : Option String} (h : ∀ l ∈ label, IsQuotable l.toList) :
    OnOneLine (labelText label) := by
  cases label with
  | none => exact onOneLine_of_all rfl
  | some l =>
    refine onOneLine_append.mpr ⟨onOneLine_append.mpr ⟨?_, (h l rfl).onOneLine⟩, ?_⟩
    · exact onOneLine_of_all (by decide)
    · exact onOneLine_of_all (by decide)

theorem onOneLine_keyText {r : AttributeRef} {label : Option String}
    (hentity : isName r.entity.toList = true) (hname : isName r.name.toList = true)
    (hlabel : ∀ l ∈ label, IsQuotable l.toList) : OnOneLine (keyText r label) := by
  have hwritten : keyText r label = [' ', 'F', 'K', ' ', '-', '>', ' '] ++ r.entity.toList ++
      ['.'] ++ r.name.toList ++ labelText label := by
    simp [keyText_eq]
  rw [hwritten]
  refine onOneLine_append.mpr ⟨onOneLine_append.mpr ⟨onOneLine_append.mpr
    ⟨onOneLine_append.mpr ⟨?_, isName.onOneLine hentity⟩, ?_⟩, isName.onOneLine hname⟩,
    onOneLine_labelText hlabel⟩
  · exact onOneLine_of_all (by decide)
  · exact onOneLine_of_all (by decide)

theorem beginsLine_text {d : Declaration} (h : d.IsPrintable) : BeginsLine d.text := by
  rw [d.text_eq]
  cases hmarkers : markers d.isKey d.content with
  | nil => exact (beginsLine_of_isName h.content.name).append _
  | cons c rest =>
    have hc := isMarker_of_mem_markers c (hmarkers ▸ List.mem_cons_self)
    refine ⟨c, _, rfl, ?_⟩
    rcases isMarker_iff.mp hc with rfl | rfl | rfl <;> decide

theorem onOneLine_text {d : Declaration} (h : d.IsPrintable) : OnOneLine d.text := by
  have hmarkers : OnOneLine (markers d.isKey d.content) := by
    intro c hc
    rcases isMarker_iff.mp (isMarker_of_mem_markers c hc) with rfl | rfl | rfl <;> decide
  have hkey : OnOneLine d.keyText := by
    unfold Declaration.keyText
    cases hreference : d.content.reference with
    | none => exact onOneLine_of_all rfl
    | some r =>
      obtain ⟨hentity, hname⟩ := h.content.reference r hreference
      exact onOneLine_keyText hentity hname fun l hl => (h.label l hl).2
  rw [d.text_eq]
  refine onOneLine_append.mpr ⟨hmarkers, ?_⟩
  refine onOneLine_append.mpr ⟨isName.onOneLine h.content.name, ?_⟩
  refine onOneLine_cons.mpr ⟨by decide, onOneLine_cons.mpr ⟨by decide, ?_⟩⟩
  exact onOneLine_append.mpr ⟨h.content.type.onOneLine, hkey⟩

theorem isLine_text {d : Declaration} (h : d.IsPrintable) : IsLine d.text :=
  isLine_of_beginsLine (beginsLine_text h) (onOneLine_text h)
    h.attributeGrammar_text.endsLine.endsNonblank

/-- A closing brace, perhaps with the word for completeness. -/
def closedText (complete : Bool) : List Char :=
  '\x7d' :: if complete then [' ', 'c', 'o', 'm', 'p', 'l', 'e', 't', 'e'] else []

theorem isLine_closingText {g : Generalization} (h : IsWritable g) : IsLine (closingText g) := by
  have hclosed : OnOneLine (closedText g.complete) ∧ EndsNonblank (closedText g.complete) := by
    cases g.complete with
    | false => exact ⟨isLine_closeBrace.onOneLine, isLine_closeBrace.ends⟩
    | true =>
      have hword : isName ['c', 'o', 'm', 'p', 'l', 'e', 't', 'e'] = true := by decide
      exact ⟨onOneLine_of_all (by decide),
        ((endsLine_of_isName hword).append ['\x7d', ' ']).endsNonblank⟩
  change IsLine (closedText g.complete ++ _)
  apply isLine_of_beginsLine (BeginsLine.append ⟨'\x7d', _, rfl, by decide⟩ _)
  · refine onOneLine_append.mpr ⟨hclosed.1, ?_⟩
    cases hdiscriminator : g.discriminator with
    | none => exact onOneLine_of_all rfl
    | some name =>
      exact onOneLine_append.mpr ⟨onOneLine_of_all (by decide),
        isName.onOneLine (h.discriminator name hdiscriminator)⟩
  · cases hdiscriminator : g.discriminator with
    | none =>
      rw [List.append_nil]
      exact hclosed.2
    | some name =>
      exact ((endsLine_of_isName (h.discriminator name hdiscriminator)).append _).append _
        |>.endsNonblank

theorem isName_entityKeyword : isName entityKeyword = true := by decide

theorem isName_generalizationKeyword : isName generalizationKeyword = true := by decide

/-- A label that is found for an attribute is that of the relationship its foreign key makes. -/
theorem exists_madeBy_of_label? {s : Schema} (mirrors : s.MirrorsForeignKeys)
    (names : s.HasDistinctNames) {e : Entity} (he : e ∈ s.entities) {a : Attribute}
    (ha : a ∈ e.attributes) {l : String} (hl : s.label? ⟨e.name, a.name⟩ = some l) :
    ∃ r, r.label = some l ∧ r ∈ s.relationships ∧ s.MadeBy r e a := by
  obtain ⟨r, hr, hlabel⟩ := Option.bind_eq_some_iff.mp hl
  have hmem := List.mem_of_find?_eq_some hr
  have hsource : r.source = ⟨e.name, a.name⟩ := by simpa using List.find?_some hr
  obtain ⟨f, b, hmade⟩ := mirrors.exists_madeBy hmem
  obtain ⟨hf, hb⟩ := AttributeRef.mk.inj (hmade.source_eq.symm.trans hsource)
  obtain rfl := List.inj_on_of_nodup_map names.entities hmade.mem_entities he hf
  obtain rfl := List.inj_on_of_nodup_map (names.attributes f he) hmade.mem_attributes ha hb
  exact ⟨r, hlabel, hmem, hmade⟩

theorem exists_of_mem_declarations {s : Schema} {e : Entity} {d : Declaration}
    (hd : d ∈ declarations s e) :
    ∃ isKey, ∃ a ∈ e.attributes, d = ⟨isKey, a, s.label? ⟨e.name, a.name⟩⟩ := by
  rcases List.mem_append.mp hd with hd | hd
  · obtain ⟨a, ha, rfl⟩ := List.mem_map.mp hd
    exact ⟨true, a, List.mem_append_left _ ha, rfl⟩
  · obtain ⟨a, ha, rfl⟩ := List.mem_map.mp hd
    exact ⟨false, a, List.mem_append_right _ ha, rfl⟩

/-- The declarations of an entity can be written. -/
theorem isPrintable_of_mem_declarations {s : Schema} (hs : IsPrintableSchema s)
    (mirrors : s.MirrorsForeignKeys) (names : s.HasDistinctNames) {e : Entity}
    (he : e ∈ s.entities) : ∀ d ∈ declarations s e, d.IsPrintable := by
  intro d hd
  obtain ⟨isKey, a, ha, rfl⟩ := exists_of_mem_declarations hd
  refine ⟨hs.attributes e he a ha, ?_, ?_⟩
  · intro l hl
    obtain ⟨r, hlabel, hmem, -⟩ := exists_madeBy_of_label? mirrors names he ha hl
    exact hs.labels r hmem l hlabel
  · intro hsome
    obtain ⟨l, hl⟩ := Option.isSome_iff_exists.mp hsome
    obtain ⟨r, -, -, hmade⟩ := exists_madeBy_of_label? mirrors names he ha hl
    simp [hmade.reference_eq]

/-- Every line of a canonical source is read as it stands. -/
theorem isLine_of_mem_canonicalLines {s : Schema} (hs : IsPrintableSchema s)
    (mirrors : s.MirrorsForeignKeys) (names : s.HasDistinctNames) :
    ∀ t ∈ canonicalLines s, IsLine t := by
  intro t ht
  rcases List.mem_append.mp ht with ht | ht
  · obtain ⟨e, he, ht⟩ := List.mem_flatMap.mp ht
    rw [entityLines, List.cons_append, List.mem_cons, List.mem_append, List.mem_singleton] at ht
    rcases ht with rfl | ht | rfl
    · exact isLine_headerText isName_entityKeyword (hs.names e he)
    · obtain ⟨d, hd, rfl⟩ := List.mem_map.mp ht
      exact isLine_text (isPrintable_of_mem_declarations hs mirrors names he d hd)
    · exact isLine_closeBrace
  · obtain ⟨g, hg, ht⟩ := List.mem_flatMap.mp ht
    have hwritable := hs.generalizations g hg
    rw [generalizationLines, List.cons_append, List.mem_cons, List.mem_append,
      List.mem_singleton] at ht
    rcases ht with rfl | ht | rfl
    · exact isLine_headerText isName_generalizationKeyword hwritable.generic
    · obtain ⟨name, hname, rfl⟩ := List.mem_map.mp ht
      exact isLine_of_isName (hwritable.categories name hname)
    · exact isLine_closingText hwritable

end EntityDiagram.Source
