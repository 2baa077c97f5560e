import EntityDiagram.Proofs.Source.CanonicalBlocks

/-! What stands between the braces of a generalization and after them. Categories are kept apart by
blanks and commas, modifiers by blanks; how many of them there are, and on which line, is without
effect. Modifiers may come in any order, each kind once. -/
namespace EntityDiagram.Source

open Text

/-- Items with separators before, between and after them, at least one between two items. -/
inductive Separated {ι : Type} (separates : Char → Prop) (writes : ι → List Char → Prop) :
    List ι → List Char → Prop
  | empty : Separated separates writes [] []
  | last {item t} (written : writes item t) : Separated separates writes [item] t
  | separator {c items t} (separated : separates c) (rest : Separated separates writes items t) :
    Separated separates writes items (c :: t)
  | item {item t c items u} (written : writes item t) (separated : separates c)
    (rest : Separated separates writes items u) :
    Separated separates writes (item :: items) (t ++ c :: u)

/-- What separates categories. -/
def SeparatesCategories (c : Char) : Prop := isBlank c = true ∨ c = ','

/-- A name as written. -/
def WritesName (name t : List Char) : Prop := isName name = true ∧ t = name

/-- Names between braces. -/
def ListsNames (names : List (List Char)) (t : List Char) : Prop :=
  Separated SeparatesCategories WritesName names t

/-- What may stand after the closing brace. -/
inductive Modifier where
  | completeness (complete : Bool)
  | discriminator (name : List Char)
  deriving DecidableEq

namespace Modifier

/-- The first word of a modifier. -/
def word : Modifier → List Char
  | completeness true => completeWord
  | completeness false => ['i', 'n', 'c', 'o', 'm', 'p', 'l', 'e', 't', 'e']
  | discriminator _ => discriminatorWord

def tokens : Modifier → List Token
  | completeness complete => [.run (completeness complete).word]
  | discriminator name => [.run discriminatorWord, .equals, .run name]

def completeness? : Modifier → Option Bool
  | completeness complete => some complete
  | discriminator _ => none

def discriminator? : Modifier → Option (List Char)
  | completeness _ => none
  | discriminator name => some name

/-- A modifier as written. -/
inductive Writes : Modifier → List Char → Prop
  | completeness {complete} : Writes (.completeness complete) (Modifier.completeness complete).word
  | discriminator {gap₁ gap₂ name} (blank₁ : IsBlankRun gap₁) (blank₂ : IsBlankRun gap₂)
    (name_isName : isName name = true) :
    Writes (.discriminator name) (discriminatorWord ++ (gap₁ ++ (['='] ++ (gap₂ ++ name))))

/-- What a modifier makes of an open generalization. -/
def apply (b : GeneralizationBlock) : Modifier → Except Malformation GeneralizationBlock
  | completeness complete =>
    if b.completeness.isSome then .error .repeatedCompleteness
    else .ok { b with completeness := some complete }
  | discriminator name =>
    if b.discriminator.isSome then .error .repeatedDiscriminator
    else .ok { b with discriminator := some (nameOf name) }

/-- What modifiers make of an open generalization, one after the other. -/
def applyAll (b : GeneralizationBlock) : List Modifier → Except Malformation GeneralizationBlock
  | [] => .ok b
  | m :: rest => m.apply b >>= (applyAll · rest)

theorem applyAll_append (b : GeneralizationBlock) (modifiers more : List Modifier) :
    applyAll b (modifiers ++ more) = applyAll b modifiers >>= (applyAll · more) := by
  induction modifiers generalizing b with
  | nil => rfl
  | cons m rest ih =>
    rw [List.cons_append, applyAll, applyAll]
    cases m.apply b with
    | error cause => rfl
    | ok later => exact ih later

/-- The completeness words and the discriminators among modifiers. -/
def completenesses (modifiers : List Modifier) : List Bool := modifiers.filterMap completeness?

def discriminators (modifiers : List Modifier) : List (List Char) :=
  modifiers.filterMap discriminator?

section

variable (complete : Bool) (name : List Char) (rest : List Modifier)

@[simp] theorem completenesses_completeness :
    completenesses (completeness complete :: rest) = complete :: completenesses rest := rfl

@[simp] theorem completenesses_discriminator :
    completenesses (discriminator name :: rest) = completenesses rest := rfl

@[simp] theorem discriminators_completeness :
    discriminators (completeness complete :: rest) = discriminators rest := rfl

@[simp] theorem discriminators_discriminator :
    discriminators (discriminator name :: rest) = name :: discriminators rest := rfl

end

/-- Each kind of modifier is given at most once. -/
def AtMostOnce (modifiers : List Modifier) : Prop :=
  (completenesses modifiers).length ≤ 1 ∧ (discriminators modifiers).length ≤ 1

instance (modifiers : List Modifier) : Decidable (AtMostOnce modifiers) :=
  inferInstanceAs (Decidable (_ ∧ _))

/-- In any order, modifiers that are given once are all taken. -/
theorem applyAll_eq_ok {b : GeneralizationBlock} {modifiers : List Modifier}
    (hcompleteness : (b.completeness.toList ++ completenesses modifiers).length ≤ 1)
    (hdiscriminator :
      (b.discriminator.toList ++ (discriminators modifiers).map nameOf).length ≤ 1) :
    applyAll b modifiers = .ok { b with
      completeness := (b.completeness.toList ++ completenesses modifiers).head?
      discriminator :=
        (b.discriminator.toList ++ (discriminators modifiers).map nameOf).head? } := by
  induction modifiers generalizing b with
  | nil =>
    obtain ⟨generic, line, categories, completeness, discriminator⟩ := b
    cases completeness <;> cases discriminator <;> rfl
  | cons m rest ih =>
    cases m with
    | completeness complete =>
      have hnone : b.completeness = none := by
        cases hgiven : b.completeness with
        | none => rfl
        | some given => simp [hgiven] at hcompleteness
      have hrest := ih (b := { b with completeness := some complete })
        (by simpa [hnone] using hcompleteness) hdiscriminator
      rw [applyAll, apply, hnone]
      exact hrest
    | discriminator name =>
      have hnone : b.discriminator = none := by
        cases hgiven : b.discriminator with
        | none => rfl
        | some given => simp [hgiven] at hdiscriminator
      have hrest := ih (b := { b with discriminator := some (nameOf name) }) hcompleteness
        (by simpa [hnone] using hdiscriminator)
      rw [applyAll, apply, hnone]
      exact hrest

/-- Of modifiers that repeat a kind, the first repetition is an error. -/
theorem exists_applyAll_eq_error {b : GeneralizationBlock} {modifiers : List Modifier}
    (h : 1 < (b.completeness.toList ++ completenesses modifiers).length ∨
      1 < (b.discriminator.toList ++ (discriminators modifiers).map nameOf).length) :
    ∃ cause, applyAll b modifiers = .error cause ∧
      (cause = .repeatedCompleteness ∨ cause = .repeatedDiscriminator) := by
  induction modifiers generalizing b with
  | nil =>
    cases hc : b.completeness <;> cases hd : b.discriminator <;>
      simp [hc, hd, completenesses, discriminators] at h
  | cons m rest ih =>
    cases m with
    | completeness complete =>
      rw [applyAll, apply]
      cases hgiven : b.completeness with
      | some given => exact ⟨_, rfl, .inl rfl⟩
      | none =>
        apply ih (b := { b with completeness := some complete })
        simpa [hgiven] using h
    | discriminator name =>
      rw [applyAll, apply]
      cases hgiven : b.discriminator with
      | some given => exact ⟨_, rfl, .inr rfl⟩
      | none =>
        apply ih (b := { b with discriminator := some (nameOf name) })
        simpa [hgiven] using h

section Fresh

variable (generic : String) (number : Nat) (categories : List (Located String))
  {modifiers : List Modifier}

/-- A block that was just closed takes modifiers that are given once. -/
theorem applyAll_fresh_eq_ok (h : AtMostOnce modifiers) :
    applyAll ⟨generic, number, categories, none, none⟩ modifiers =
      .ok ⟨generic, number, categories, (completenesses modifiers).head?,
        (discriminators modifiers).head?.map nameOf⟩ := by
  have hcompleteness : (([] : List Bool) ++ completenesses modifiers).length ≤ 1 := by
    simpa using h.1
  have hdiscriminator :
      (([] : List String) ++ (discriminators modifiers).map nameOf).length ≤ 1 := by
    simpa using h.2
  simpa using applyAll_eq_ok (b := ⟨generic, number, categories, none, none⟩) hcompleteness
    hdiscriminator

theorem exists_applyAll_fresh_eq_error (h : ¬AtMostOnce modifiers) :
    ∃ cause, applyAll ⟨generic, number, categories, none, none⟩ modifiers = .error cause ∧
      (cause = .repeatedCompleteness ∨ cause = .repeatedDiscriminator) := by
  apply exists_applyAll_eq_error
  rw [AtMostOnce, not_and_or, not_le, not_le] at h
  simpa using h

end Fresh

end Modifier

section Tokens

variable {gap t u : List Char}

theorem isRunChar_eq_false_of_isBlank {c : Char} (h : isBlank c = true) :
    Token.isRunChar c = false := by
  simp [Token.isRunChar, h]

theorem ofText_cons_of_isBlank {c : Char} (h : isBlank c = true) (t : List Char) :
    Token.ofText (c :: t) = Token.ofText t := by
  rw [Token.ofText, if_pos h]

theorem ofText_blankRun_append (h : IsBlankRun gap) (u : List Char) :
    Token.ofText (gap ++ u) = Token.ofText u := by
  induction gap with
  | nil => rfl
  | cons c gap ih =>
    obtain ⟨hc, hgap⟩ := List.forall_mem_cons.mp h
    rw [List.cons_append, ofText_cons_of_isBlank hc, ih hgap]

theorem head?_blankRun_append_isRunChar (h : IsBlankRun gap)
    (hu : ∀ c ∈ u.head?, Token.isRunChar c = false) :
    ∀ c ∈ (gap ++ u).head?, Token.isRunChar c = false :=
  forall_head?_blankRun_append (fun _ => isRunChar_eq_false_of_isBlank) h hu

/-- The tokens of a modifier, whatever follows it. -/
theorem Modifier.Writes.ofText_append {m : Modifier} (h : m.Writes t)
    (hu : ∀ c ∈ u.head?, Token.isRunChar c = false) :
    Token.ofText (t ++ u) = m.tokens ++ Token.ofText u := by
  cases h with
  | @completeness complete =>
    have hword : isName (Modifier.completeness complete).word = true := by
      cases complete <;> decide
    exact ofText_append_of_isName hword hu
  | @discriminator gap₁ gap₂ name blank₁ blank₂ name_isName =>
    have hequals (rest : List Char) : Token.ofText (['='] ++ rest) = .equals :: Token.ofText rest :=
      rfl
    have hhead (rest : List Char) : ∀ c ∈ (['='] ++ rest).head?, Token.isRunChar c = false :=
      forall_head?_cons (by decide)
    simp only [List.append_assoc]
    rw [ofText_append_of_isName (by decide) (head?_blankRun_append_isRunChar blank₁ (hhead _)),
      ofText_blankRun_append blank₁, hequals, ofText_blankRun_append blank₂,
      ofText_append_of_isName name_isName hu]
    rfl

theorem readModifiers_tokens_append {m : Modifier} (h : m.Writes t) (b : GeneralizationBlock)
    (n : Nat) (rest : List Token) : (readModifiers b n (m.tokens ++ rest)).mapError (·.cause) =
      m.apply b >>= fun later => (readModifiers later n rest).mapError (·.cause) := by
  cases h with
  | @completeness complete =>
    have hword : completeness? (Modifier.completeness complete).word = some complete := by
      cases complete <;> decide
    rw [Modifier.tokens, List.singleton_append, readModifiers.eq_def, Modifier.apply]
    simp only [hword]
    cases b.completeness <;> rfl
  | discriminator blank₁ blank₂ name_isName =>
    have hword : completeness? discriminatorWord = none := by decide
    have hdiscriminator : isDiscriminator discriminatorWord = true := by decide
    simp only [Modifier.tokens, Modifier.apply, List.cons_append, List.nil_append, readModifiers,
      hword, hdiscriminator, name_isName, if_true]
    cases b.discriminator <;> rfl

/-- Modifiers are read one after the other. -/
theorem readModifiers_ofText {modifiers : List Modifier}
    (h : Separated (isBlank · = true) Modifier.Writes modifiers t) (b : GeneralizationBlock)
    (n : Nat) : (readModifiers b n (Token.ofText t)).mapError (·.cause) =
      Modifier.applyAll b modifiers := by
  induction h generalizing b with
  | empty => rfl
  | @last m t written =>
    have htokens := written.ofText_append (u := []) (by simp)
    rw [List.append_nil] at htokens
    rw [htokens, readModifiers_tokens_append written]
    rfl
  | separator separated rest ih => rw [ofText_cons_of_isBlank separated, ih]
  | @item m t c modifiers u written separated rest ih =>
    have hhead : ∀ d ∈ (c :: u).head?, Token.isRunChar d = false :=
      forall_head?_cons (isRunChar_eq_false_of_isBlank separated)
    rw [written.ofText_append hhead, readModifiers_tokens_append written,
      ofText_cons_of_isBlank separated, Modifier.applyAll]
    simp only [ih]

/-- A block with more categories, all on one line. -/
def GeneralizationBlock.addCategories (b : GeneralizationBlock) (n : Nat)
    (names : List (List Char)) : GeneralizationBlock :=
  { b with categories := b.categories ++ names.map fun name => ⟨n, nameOf name⟩ }

theorem isRunChar_eq_false_of_separates {c : Char} (h : SeparatesCategories c) :
    Token.isRunChar c = false := by
  obtain hblank | rfl := h
  · exact isRunChar_eq_false_of_isBlank hblank
  · decide

/-- A separator between categories is without effect. -/
theorem readCategories_separator {c : Char} (h : SeparatesCategories c) (b : GeneralizationBlock)
    (n : Nat) (t : List Char) :
    readCategories b n (Token.ofText (c :: t)) = readCategories b n (Token.ofText t) := by
  obtain hblank | rfl := h
  · rw [ofText_cons_of_isBlank hblank]
  · rfl

theorem readCategories_name {name : List Char} (h : isName name = true)
    (hu : ∀ c ∈ u.head?, Token.isRunChar c = false) (b : GeneralizationBlock) (n : Nat) :
    readCategories b n (Token.ofText (name ++ u)) =
      readCategories (b.addCategory ⟨n, nameOf name⟩) n (Token.ofText u) := by
  rw [ofText_append_of_isName h hu, readCategories, if_pos h]

/-- Names between braces are read as categories, up to the end of the line or to what follows. -/
theorem readCategories_ofText_append {names : List (List Char)} (h : ListsNames names t)
    (hu : ∀ c ∈ u.head?, Token.isRunChar c = false) (b : GeneralizationBlock) (n : Nat) :
    readCategories b n (Token.ofText (t ++ u)) =
      readCategories (b.addCategories n names) n (Token.ofText u) := by
  induction h generalizing b with
  | empty => simp [GeneralizationBlock.addCategories]
  | @last name t written =>
    obtain ⟨hname, rfl⟩ := written
    exact readCategories_name hname hu b n
  | separator separated rest ih => rw [List.cons_append, readCategories_separator separated, ih]
  | @item name t c names v written separated rest ih =>
    obtain ⟨hname, rfl⟩ := written
    have hhead : ∀ d ∈ (c :: (v ++ u)).head?, Token.isRunChar d = false :=
      forall_head?_cons (isRunChar_eq_false_of_separates separated)
    rw [List.append_assoc, List.cons_append, readCategories_name hname hhead,
      readCategories_separator separated, ih]
    simp [GeneralizationBlock.addCategories, GeneralizationBlock.addCategory]

end Tokens

end EntityDiagram.Source
