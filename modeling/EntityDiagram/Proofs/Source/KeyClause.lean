import EntityDiagram.Source.AttributeLine
import EntityDiagram.Proofs.Text.Characters
import Mathlib.Data.List.Basic

/-! The grammar of foreign keys. A token is found behind the blanks before it and nowhere else, and
a label ends at the next quote, so what is read as a foreign key is what the grammar derives. -/
namespace EntityDiagram.Source

open Text

/-- Blanks and nothing else. -/
def IsBlankRun (t : List Char) : Prop := ∀ c ∈ t, isBlank c = true

/-- Nothing, or blanks and a label in quotes. -/
inductive LabelClause : List Char → Option (List Char) → Prop
  | absent : LabelClause [] none
  | quoted {gap label} (blank : IsBlankRun gap) (ne_nil : gap ≠ []) (quoteFree : '"' ∉ label) :
    LabelClause (gap ++ '"' :: (label ++ ['"'])) (some label)

/-- Blanks, `FK`, an arrow, an entity, a point, an attribute, and perhaps a label. -/
inductive KeyClause : List Char → ForeignKey → Prop
  | key {gap₁ gap₂ gap₃ entity gap₄ gap₅ name clause label} (ne_nil : gap₁ ≠ [])
    (blank₁ : IsBlankRun gap₁) (blank₂ : IsBlankRun gap₂) (blank₃ : IsBlankRun gap₃)
    (entity_isName : isName entity = true) (blank₄ : IsBlankRun gap₄) (blank₅ : IsBlankRun gap₅)
    (name_isName : isName name = true) (labelled : LabelClause clause label) :
    KeyClause (gap₁ ++ (['F', 'K'] ++ (gap₂ ++ (['-', '>'] ++ (gap₃ ++ (entity ++ (gap₄ ++
      (['.'] ++ (gap₅ ++ (name ++ clause)))))))))) ⟨entity, name, label⟩

/-- Nothing, or a foreign key. -/
inductive OptionalKey : List Char → Option ForeignKey → Prop
  | absent : OptionalKey [] none
  | present {clause key} (keyed : KeyClause clause key) : OptionalKey clause (some key)

variable {text t u w p rest gap : List Char}

theorem name?_eq_some_iff : name? text = some (w, rest) ↔
    isName w = true ∧ text = w ++ rest ∧ ∀ c ∈ rest.head?, isWordChar c = false := by
  unfold name?
  constructor
  · intro h
    split_ifs at h with hempty
    cases h
    refine ⟨isName_iff.mpr ⟨by simpa using hempty, all_isWordChar_word text⟩,
      (word_append_afterWord text).symm, ?_⟩
    intro c hc
    have := List.head?_dropWhile_not isWordChar text
    rw [← afterWord, Option.mem_def.mp hc] at this
    simpa using this
  · rintro ⟨hname, rfl, hrest⟩
    obtain ⟨hne, hall⟩ := isName_iff.mp hname
    rw [word_append hall hrest, afterWord_append hall hrest, if_neg (by simpa using hne)]

theorem afterBlanks?_eq_some_iff : afterBlanks? text = some rest ↔
    ∃ c u, text = c :: u ∧ isBlank c = true ∧ rest = dropBlanks u := by
  cases text with
  | nil => simp [afterBlanks?]
  | cons c u =>
    simp only [afterBlanks?, Option.ite_none_right_eq_some, Option.some.injEq, List.cons.injEq]
    grind

theorem suffix_of_afterBlanks? (h : afterBlanks? text = some rest) : rest <:+ text := by
  obtain ⟨c, u, rfl, -, rfl⟩ := afterBlanks?_eq_some_iff.mp h
  exact (dropBlanks_suffix u).trans (List.suffix_cons c u)

theorem suffix_of_isPrefixOf? {p : List Char} (h : p.isPrefixOf? text = some rest) :
    rest <:+ text := ⟨p, List.isPrefixOf?_eq_some_iff_append_eq.mp h⟩

theorem isBlankRun_nil : IsBlankRun [] := by simp [IsBlankRun]

theorem isBlankRun_space : IsBlankRun [' '] := by
  intro c hc
  cases List.mem_singleton.mp hc
  rfl

theorem exists_blankRun (t : List Char) : ∃ gap, IsBlankRun gap ∧ t = gap ++ dropBlanks t :=
  ⟨t.takeWhile isBlank, fun _ hc => List.mem_takeWhile_imp hc, List.takeWhile_append_dropWhile.symm⟩

theorem dropBlanks_blankRun_append (h : IsBlankRun gap) (hu : StartsNonblank u) :
    dropBlanks (gap ++ u) = u := by
  rw [dropBlanks, List.dropWhile_append_of_pos h, ← dropBlanks, dropBlanks_eq_self hu]

theorem eq_nil_of_dropBlanks_eq_nil (h : EndsNonblank t) (hnil : dropBlanks t = []) : t = [] := by
  by_contra hne
  have hlast := h _ (List.getLast?_eq_some_getLast hne)
  have hblank := List.dropWhile_eq_nil_iff.mp hnil _ (List.getLast_mem hne)
  rw [hlast] at hblank
  contradiction

/-- What holds of blanks and of the beginning of a text holds of the text behind blanks. -/
theorem forall_head?_blankRun_append {P : Char → Prop} (hblank : ∀ c, isBlank c = true → P c)
    (h : IsBlankRun gap) (hu : ∀ c ∈ u.head?, P c) : ∀ c ∈ (gap ++ u).head?, P c := by
  cases gap with
  | nil => exact hu
  | cons b gap => exact forall_head?_cons (hblank b (h b List.mem_cons_self))

/-- A name that blanks follow, or what is no word character, is not longer. -/
theorem head?_blankRun_append (h : IsBlankRun gap) (hu : ∀ c ∈ u.head?, isWordChar c = false) :
    ∀ c ∈ (gap ++ u).head?, isWordChar c = false :=
  forall_head?_blankRun_append (fun _ => isWordChar_eq_false_of_isBlank) h hu

/-! Each token is found behind the blanks before it, and only there. -/

theorem exists_of_afterBlanks? (h : afterBlanks? t = some rest) :
    ∃ gap, gap ≠ [] ∧ IsBlankRun gap ∧ t = gap ++ rest := by
  obtain ⟨c, u, rfl, hc, rfl⟩ := afterBlanks?_eq_some_iff.mp h
  obtain ⟨gap, hgap, hu⟩ := exists_blankRun u
  refine ⟨c :: gap, by simp, List.forall_mem_cons.mpr ⟨hc, hgap⟩, ?_⟩
  rw [List.cons_append, ← hu]

theorem afterBlanks?_append (hgap : IsBlankRun gap) (hne : gap ≠ []) (hu : StartsNonblank u) :
    afterBlanks? (gap ++ u) = some u := by
  obtain ⟨c, gap, rfl⟩ := List.exists_cons_of_ne_nil hne
  obtain ⟨hc, hgap⟩ := List.forall_mem_cons.mp hgap
  exact afterBlanks?_eq_some_iff.mpr
    ⟨c, gap ++ u, rfl, hc, (dropBlanks_blankRun_append hgap hu).symm⟩

theorem exists_of_isPrefixOf?_dropBlanks (h : p.isPrefixOf? (dropBlanks t) = some rest) :
    ∃ gap, IsBlankRun gap ∧ t = gap ++ (p ++ rest) := by
  obtain ⟨gap, hgap, ht⟩ := exists_blankRun t
  rw [← List.isPrefixOf?_eq_some_iff_append_eq.mp h] at ht
  exact ⟨gap, hgap, ht⟩

theorem isPrefixOf?_dropBlanks_append {c : Char} (hgap : IsBlankRun gap) (hc : isBlank c = false) :
    (c :: p).isPrefixOf? (dropBlanks (gap ++ (c :: p ++ rest))) = some rest := by
  rw [dropBlanks_blankRun_append hgap (u := c :: p ++ rest) (startsNonblank_cons.mpr hc)]
  exact List.isPrefixOf?_eq_some_iff_append_eq.mpr rfl

theorem exists_of_name?_dropBlanks (h : name? (dropBlanks t) = some (w, rest)) :
    ∃ gap, IsBlankRun gap ∧ isName w = true ∧ t = gap ++ (w ++ rest) := by
  obtain ⟨gap, hgap, ht⟩ := exists_blankRun t
  obtain ⟨hw, hsplit, -⟩ := name?_eq_some_iff.mp h
  rw [hsplit] at ht
  exact ⟨gap, hgap, hw, ht⟩

theorem name?_dropBlanks_append (hgap : IsBlankRun gap) (hw : isName w = true)
    (hrest : ∀ c ∈ rest.head?, isWordChar c = false) :
    name? (dropBlanks (gap ++ (w ++ rest))) = some (w, rest) := by
  rw [dropBlanks_blankRun_append hgap (isName.startsNonblank_append hw rest)]
  exact name?_eq_some_iff.mpr ⟨hw, rfl, hrest⟩

/-! A label ends at the next quote. -/

theorem dropWhile_quote (h : '"' ∉ t) : (t ++ '"' :: rest).dropWhile (· ≠ '"') = '"' :: rest ∧
    (t ++ '"' :: rest).takeWhile (· ≠ '"') = t := by
  have hquotes : ∀ c ∈ t, decide (c ≠ '"') = true := by
    intro c hc
    simpa using fun heq : c = '"' => h (heq ▸ hc)
  rw [List.dropWhile_append_of_pos hquotes, List.takeWhile_append_of_pos hquotes]
  simp

theorem LabelClause.label?_eq {label : Option (List Char)} (h : LabelClause t label) :
    label? t = some label := by
  cases h with
  | absent => rfl
  | @quoted gap label blank ne_nil quoteFree =>
    have hquote : StartsNonblank ('"' :: (label ++ ['"'])) := startsNonblank_cons.mpr rfl
    obtain ⟨hdrop, htake⟩ := @dropWhile_quote label [] quoteFree
    unfold label?
    simp only [dropBlanks_blankRun_append blank hquote, afterBlanks?_append blank ne_nil hquote,
      Option.bind_eq_bind, Option.bind_some, List.isPrefixOf?, beq_self_eq_true, if_true, hdrop,
      htake]
    rfl

theorem labelClause_of_label? {label : Option (List Char)} (h : label? t = some label)
    (ht : EndsNonblank t) : LabelClause t label := by
  unfold label? at h
  split_ifs at h with hblank
  · cases h
    rw [eq_nil_of_dropBlanks_eq_nil ht (by simpa using hblank)]
    exact .absent
  · simp only [Option.bind_eq_bind, Option.bind_eq_some_iff, Option.ite_none_right_eq_some,
      List.isPrefixOf?_eq_some_iff_append_eq, List.isEmpty_iff] at h
    obtain ⟨_, hafter, quoted, rfl, after, hclose, hend, h⟩ := h
    cases h
    obtain ⟨gap, hne, hgap, rfl⟩ := exists_of_afterBlanks? hafter
    have hquoted : quoted = quoted.takeWhile (· ≠ '"') ++ '"' :: after := by
      conv_lhs => rw [← List.takeWhile_append_dropWhile (p := (· ≠ '"')) (l := quoted), ← hclose]
      rfl
    -- Behind the closing quote there are only blanks, and the text does not end with one.
    have hsuffix : after <:+ gap ++ (['"'] ++ quoted) := by
      rw [hquoted]
      exact ⟨gap ++ '"' :: (quoted.takeWhile (· ≠ '"') ++ ['"']), by simp⟩
    rw [eq_nil_of_dropBlanks_eq_nil (ht.suffix hsuffix) hend] at hquoted
    have hfree : '"' ∉ quoted.takeWhile (· ≠ '"') := by
      intro hmem
      have := List.mem_takeWhile_imp hmem
      simp at this
    conv =>
      arg 1
      rw [hquoted]
    exact .quoted hgap hne hfree

theorem LabelClause.head?_eq_false {label : Option (List Char)} (h : LabelClause t label) :
    ∀ c ∈ t.head?, isWordChar c = false := by
  cases h with
  | absent => simp
  | quoted blank ne_nil quoteFree =>
    apply head?_blankRun_append blank
    exact forall_head?_cons (by decide)

/-! What is read as a foreign key is a text of the grammar. -/

theorem KeyClause.foreignKey?_eq {k : ForeignKey} (h : KeyClause t k) :
    foreignKey? t = some k := by
  cases h with
  | key ne_nil blank₁ blank₂ blank₃ entity_isName blank₄ blank₅ name_isName labelled =>
    have hpoint : ∀ after, ∀ c ∈ (['.'] ++ after).head?, isWordChar c = false := by
      intro after c hc
      cases hc
      decide
    have hkey : ∀ after, ['F', 'K'].isPrefixOf? (['F', 'K'] ++ after) = some after :=
      fun _ => rfl
    unfold foreignKey?
    rw [afterBlanks?_append blank₁ ne_nil (u := ['F', 'K'] ++ _) (startsNonblank_cons.mpr rfl)]
    simp only [Option.bind_eq_bind, Option.bind_some, hkey,
      isPrefixOf?_dropBlanks_append blank₂ (show isBlank '-' = false from rfl),
      name?_dropBlanks_append blank₃ entity_isName (head?_blankRun_append blank₄ (hpoint _)),
      isPrefixOf?_dropBlanks_append blank₄ (show isBlank '.' = false from rfl),
      name?_dropBlanks_append blank₅ name_isName labelled.head?_eq_false, labelled.label?_eq]
    rfl

theorem keyClause_of_foreignKey? {k : ForeignKey} (h : foreignKey? t = some k)
    (ht : EndsNonblank t) : KeyClause t k := by
  simp only [foreignKey?, Option.bind_eq_bind, Option.bind_eq_some_iff, Prod.exists] at h
  obtain ⟨_, hblank, afterKey, hkey, afterArrow, harrow, entity, afterEntity, hentity, afterPoint,
    hpoint, name, afterName, hname, label, hlabel, h⟩ := h
  cases h
  obtain rfl := List.isPrefixOf?_eq_some_iff_append_eq.mp hkey
  obtain ⟨gap₁, hne, hgap₁, rfl⟩ := exists_of_afterBlanks? hblank
  obtain ⟨gap₂, hgap₂, rfl⟩ := exists_of_isPrefixOf?_dropBlanks harrow
  obtain ⟨gap₃, hgap₃, hentityName, rfl⟩ := exists_of_name?_dropBlanks hentity
  obtain ⟨gap₄, hgap₄, rfl⟩ := exists_of_isPrefixOf?_dropBlanks hpoint
  obtain ⟨gap₅, hgap₅, hnameName, rfl⟩ := exists_of_name?_dropBlanks hname
  refine .key hne hgap₁ hgap₂ hgap₃ hentityName hgap₄ hgap₅ hnameName
    (labelClause_of_label? hlabel ?_)
  simp only [← List.append_assoc] at ht
  exact ht.suffix (List.suffix_append _ _)

theorem OptionalKey.foreignKey?_eq {key : Option ForeignKey} (h : OptionalKey t key) :
    foreignKey? t = key := by
  cases h with
  | absent => rfl
  | present keyed => exact keyed.foreignKey?_eq

/-- Blanks before a foreign key belong to it. -/
theorem foreignKey?_cons_of_isBlank {c : Char} (hc : isBlank c = true) {k : ForeignKey}
    (h : foreignKey? text = some k) : foreignKey? (c :: text) = some k := by
  have hafter : ∀ after, afterBlanks? text = some after →
      afterBlanks? (c :: text) = some after := by
    intro after hafter
    obtain ⟨d, u, rfl, hd, rfl⟩ := afterBlanks?_eq_some_iff.mp hafter
    simp [afterBlanks?, hc, dropBlanks, hd]
  unfold foreignKey? at h ⊢
  simp only [Option.bind_eq_bind, Option.bind_eq_some_iff] at h ⊢
  obtain ⟨afterBlank, hblank, h⟩ := h
  exact ⟨afterBlank, hafter _ hblank, h⟩

end EntityDiagram.Source
