import EntityDiagram.Proofs.Source.KeyClause

/-! The type of an attribute and where it ends. A foreign key cannot begin inside a type that holds
no `FK` as a word, so the shortest type that a key follows is the whole type, whatever stands in the
label. -/
namespace EntityDiagram.Source

open Text

/-- A word stands in the text by itself: no word character is next to it. -/
def HasWord (w t : List Char) : Prop :=
  ∃ before after, t = before ++ (w ++ after) ∧
    (∀ c ∈ before.getLast?, isWordChar c = false) ∧ ∀ c ∈ after.head?, isWordChar c = false

/-- What can stand as a type: it is trimmed and holds no brace, no arrow and no `FK` as a word. -/
structure IsFreeText (t : List Char) : Prop where
  ne_nil : t ≠ []
  starts : StartsNonblank t
  ends : EndsNonblank t
  braceFree : '\x7b' ∉ t ∧ '\x7d' ∉ t
  arrowFree : ¬ ['-', '>'] <:+: t
  keyFree : ¬ HasWord ['F', 'K'] t

variable {text t u v w rest : List Char} {key : Option ForeignKey}

/-! The tests of a type find what they look for. -/

theorem beginsWithKey_iff :
    beginsWithKey t = true ↔ ∃ after, t = ['F', 'K'] ++ after ∧
      ∀ c ∈ after.head?, isWordChar c = false := by
  unfold beginsWithKey
  cases hrest : ['F', 'K'].isPrefixOf? t with
  | none =>
    simp only [Bool.false_eq_true, false_iff, not_exists, not_and]
    rintro after rfl
    contradiction
  | some rest =>
    have ht := List.isPrefixOf?_eq_some_iff_append_eq.mp hrest
    subst ht
    simp [Option.all_eq_true]

/-- The search goes on behind a word character exactly when `afterWord` is set. -/
theorem mentionsKey_iff (afterWord : Bool) :
    mentionsKey afterWord t = true ↔ ∃ before after, t = before ++ (['F', 'K'] ++ after) ∧
      (before.getLast?.map isWordChar).getD afterWord = false ∧
        ∀ c ∈ after.head?, isWordChar c = false := by
  induction t generalizing afterWord with
  | nil => simp [mentionsKey]
  | cons c t ih =>
    rw [mentionsKey, Bool.or_eq_true, Bool.and_eq_true, beginsWithKey_iff, ih]
    have hlast : ∀ before : List Char, ((c :: before).getLast?.map isWordChar).getD afterWord =
        (before.getLast?.map isWordChar).getD (isWordChar c) := by
      intro before
      rw [List.getLast?_cons, Option.map_some, Option.getD_some, Option.getD_map]
    constructor
    · rintro (⟨hword, after, ht, hafter⟩ | ⟨before, after, rfl, hbefore, hafter⟩)
      · exact ⟨[], after, ht, by simpa using hword, hafter⟩
      · exact ⟨c :: before, after, rfl, (hlast before).trans hbefore, hafter⟩
    · rintro ⟨before, after, ht, hbefore, hafter⟩
      cases before with
      | nil => exact .inl ⟨by simpa using hbefore, after, ht, hafter⟩
      | cons b before =>
        obtain ⟨rfl, rfl⟩ := List.cons.inj ht
        exact .inr ⟨before, after, rfl, (hlast before).symm.trans hbefore, hafter⟩

theorem mentionsKey_iff_hasWord : mentionsKey false t = true ↔ HasWord ['F', 'K'] t := by
  rw [mentionsKey_iff]
  apply exists_congr
  intro before
  cases hlast : before.getLast? <;> simp

theorem mentionsArrow_iff : mentionsArrow t = true ↔ ['-', '>'] <:+: t := by
  induction t using mentionsArrow.induct with
  | case1 => simp [mentionsArrow]
  | case2 rest => simpa [mentionsArrow] using ⟨[], rest, rfl⟩
  | case3 c rest harrow ih =>
    rw [mentionsArrow.eq_3 c rest harrow, ih, List.infix_cons_iff, or_iff_right]
    rintro ⟨more, hmore⟩
    obtain ⟨rfl, rfl⟩ := List.cons.inj hmore
    exact harrow more rfl rfl

theorem isFreeText_iff : IsFreeText t ↔ t ≠ [] ∧ StartsNonblank t ∧ EndsNonblank t ∧
    hasKeyFragment t = false ∧ hasBrace t = false := by
  have hkey : hasKeyFragment t = false ↔ ¬ HasWord ['F', 'K'] t ∧ ¬ ['-', '>'] <:+: t := by
    rw [hasKeyFragment, Bool.or_eq_false_iff, ← mentionsKey_iff_hasWord, ← mentionsArrow_iff,
      Bool.not_eq_true, Bool.not_eq_true]
  have hbrace : hasBrace t = false ↔ '\x7b' ∉ t ∧ '\x7d' ∉ t := by
    simp only [hasBrace, List.any_eq_false, Bool.or_eq_true, beq_iff_eq]
    grind
  rw [hkey, hbrace]
  constructor
  · intro h
    exact ⟨h.ne_nil, h.starts, h.ends, ⟨h.keyFree, h.arrowFree⟩, h.braceFree⟩
  · rintro ⟨hne, hstarts, hends, ⟨hkeyFree, harrowFree⟩, hbraceFree⟩
    exact ⟨hne, hstarts, hends, hbraceFree, harrowFree, hkeyFree⟩

/-! Where a type ends. -/

theorem dropBlanks_append (h : dropBlanks t ≠ []) : dropBlanks (t ++ u) = dropBlanks t ++ u := by
  rw [dropBlanks, List.dropWhile_append, if_neg (by simpa [dropBlanks] using h), dropBlanks]

/-- Behind a blank of a type no `FK` stands as a word. -/
theorem IsFreeText.beginsWithKey_dropBlanks (ht : IsFreeText t) {b : Char} (hb : isBlank b = true)
    {q : List Char} (hu : q ++ b :: u = t) : beginsWithKey (dropBlanks u) = false := by
  rw [← Bool.not_eq_true, beginsWithKey_iff]
  rintro ⟨after, hafter, hword⟩
  obtain ⟨gap, hgap, hsplit⟩ := exists_blankRun u
  refine ht.keyFree ⟨q ++ b :: gap, after, ?_, ?_, hword⟩
  · rw [← hu, hsplit, hafter]
    simp
  · intro c hc
    rw [List.getLast?_append_of_ne_nil _ (by simp)] at hc
    have hblank : IsBlankRun (b :: gap) := List.forall_mem_cons.mpr ⟨hb, hgap⟩
    exact isWordChar_eq_false_of_isBlank (hblank c (List.mem_of_mem_getLast? hc))

/-- Where the letters of `FK` begin but do not stand as a word, no arrow follows them. -/
theorem isPrefixOf?_arrow_eq_none (hv : v ≠ []) (hkey : beginsWithKey v = false)
    (hrest : ∀ more, rest ≠ 'K' :: more) (hw : ['F', 'K'] ++ w = v ++ rest) :
    ['-', '>'].isPrefixOf? (dropBlanks w) = none := by
  cases v with
  | nil => contradiction
  | cons f v =>
    cases v with
    | nil => exact absurd (List.cons.inj hw).2.symm (hrest w)
    | cons k z =>
      simp only [List.cons_append, List.nil_append, List.cons.injEq] at hw
      obtain ⟨rfl, rfl, rfl⟩ := hw
      have hgoesOn : z.head?.all (fun c => !isWordChar c) = false := by
        simpa [beginsWithKey, List.isPrefixOf?] using hkey
      cases z with
      | nil => contradiction
      | cons c z =>
        have hc : isWordChar c = true := by simpa using hgoesOn
        have hself : dropBlanks (c :: z ++ rest) = c :: z ++ rest :=
          dropBlanks_eq_self (startsNonblank_cons.mpr (isBlank_eq_false hc))
        have hne : ('-' == c) = false := by
          rw [beq_eq_false_iff_ne]
          rintro rfl
          exact absurd hc (by decide)
        rw [hself, List.cons_append, List.isPrefixOf?, hne]
        rfl

/-- No foreign key begins inside a type. -/
theorem foreignKey?_append_eq_none (ht : IsFreeText t) (hu : u <:+ t) (hne : u ≠ [])
    (hrest : ∀ more, rest ≠ 'K' :: more) : foreignKey? (u ++ rest) = none := by
  by_contra hsome
  obtain ⟨k, hk⟩ := Option.ne_none_iff_exists'.mp hsome
  simp only [foreignKey?, Option.bind_eq_bind, Option.bind_eq_some_iff] at hk
  obtain ⟨v, hv, w, hw, arrow, harrow, -⟩ := hk
  obtain ⟨b, x, hbx, hb, rfl⟩ := afterBlanks?_eq_some_iff.mp hv
  obtain ⟨q, hq⟩ := hu
  cases u with
  | nil => contradiction
  | cons c u =>
    rw [List.cons_append, List.cons.injEq] at hbx
    obtain ⟨rfl, rfl⟩ := hbx
    have hends : EndsNonblank (c :: u) := ht.ends.suffix ⟨q, hq⟩
    have hune : u ≠ [] := by
      rintro rfl
      have := hends c rfl
      rw [hb] at this
      contradiction
    have hdrop := mt (eq_nil_of_dropBlanks_eq_nil (hends.suffix (List.suffix_cons c u))) hune
    -- The letters of `FK` are both in the type, so it would hold the word unless it goes on.
    rw [dropBlanks_append hdrop, List.isPrefixOf?_eq_some_iff_append_eq] at hw
    have hnone := isPrefixOf?_arrow_eq_none hdrop (ht.beginsWithKey_dropBlanks hb hq) hrest hw
    rw [hnone] at harrow
    contradiction

/-- A foreign key begins with a blank. -/
theorem OptionalKey.ne_cons (h : OptionalKey rest key) : ∀ more, rest ≠ 'K' :: more := by
  cases h with
  | absent => simp
  | present keyed =>
    cases keyed with
    | @key gap₁ _ _ _ _ _ _ _ _ ne_nil blank₁ =>
      obtain ⟨b, gap, rfl⟩ := List.exists_cons_of_ne_nil ne_nil
      rintro more hmore
      obtain ⟨rfl, -⟩ := List.cons.inj hmore
      exact absurd (blank₁ 'K' List.mem_cons_self) (by decide)

/-- A type is split off again from what follows it, a foreign key or nothing. -/
theorem splitType_append (ht : IsFreeText t) (hrest : OptionalKey rest key) (hu : u <:+ t)
    (hne : u ≠ []) : splitType (u ++ rest) = (u, key) := by
  -- The induction is on the end of the type that is left; a key follows it at its last character.
  induction u with
  | nil => contradiction
  | cons c u ih =>
    rw [List.cons_append, splitType]
    cases u with
    | nil =>
      cases hrest with
      | absent => rfl
      | present keyed =>
        rw [List.nil_append, keyed.foreignKey?_eq]
    | cons d u =>
      have hsuffix := (List.suffix_cons c (d :: u)).trans hu
      rw [foreignKey?_append_eq_none ht hsuffix (by simp) hrest.ne_cons, ih hsuffix (by simp)]

/-- The type and the foreign key are all of the text. -/
theorem exists_optionalKey_splitType (h : EndsNonblank text) :
    ∃ rest, text = (splitType text).1 ++ rest ∧ OptionalKey rest (splitType text).2 := by
  induction text with
  | nil => exact ⟨[], rfl, .absent⟩
  | cons c text ih =>
    have hrest := h.suffix (List.suffix_cons c text)
    unfold splitType
    split
    · rename_i key hkey
      exact ⟨text, rfl, .present (keyClause_of_foreignKey? hkey hrest)⟩
    · obtain ⟨rest, htext, hkey⟩ := ih hrest
      exact ⟨rest, by simpa using htext, hkey⟩

theorem head?_splitType (text : List Char) : (splitType text).1.head? = text.head? := by
  cases text with
  | nil => rfl
  | cons c text =>
    unfold splitType
    split <;> rfl

/-- A type ends with a blank only if it is all blank: otherwise the foreign key would have begun
earlier. -/
theorem endsNonblank_splitType (hstart : StartsNonblank text ∨ foreignKey? text = none)
    (hend : EndsNonblank text) : EndsNonblank (splitType text).1 := by
  induction text with
  | nil => exact hend
  | cons c text ih =>
    unfold splitType
    split
    · rename_i key hkey
      have hc : isBlank c = false := by
        rcases hstart with hstart | hnone
        · exact startsNonblank_cons.mp hstart
        · by_contra hc
          rw [foreignKey?_cons_of_isBlank (by simpa using hc) hkey] at hnone
          contradiction
      simpa [EndsNonblank] using hc
    · rename_i hnone
      have htext := ih (.inr hnone) (hend.suffix (List.suffix_cons c text))
      cases text with
      | nil => exact hend
      | cons d text =>
        have hne : (splitType (d :: text)).1 ≠ [] := by
          intro hnil
          have := head?_splitType (d :: text)
          rw [hnil] at this
          contradiction
        exact endsNonblank_append_of_ne_nil (t := [c]) hne htext

end EntityDiagram.Source
