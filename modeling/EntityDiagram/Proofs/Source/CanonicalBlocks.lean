import EntityDiagram.Proofs.Source.CanonicalLines

/-! Reading back canonical blocks, line by line. An opened block takes in its lines one after the
other, and its last line closes it; a generalization stays open for modifiers until the next block
begins. -/
namespace EntityDiagram.Source

open Text

variable {c next : Context} {line : Line} {blocks : List Block}

/-- The scan goes on with what a line leaves open. -/
theorem scan_cons_of_step (h : c.step line = ⟨blocks, .ok next⟩) (rest : List Line) :
    c.scan (line :: rest) =
      ⟨blocks ++ (next.scan rest).blocks, (next.scan rest).malformed?⟩ := by
  rw [Context.scan, h]

theorem scan_cons_of_step_to (h : c.step line = .to next) (rest : List Line) :
    c.scan (line :: rest) = next.scan rest := by
  rw [scan_cons_of_step h, List.nil_append]

/-- Lines that each add an item to what is open are read as the items. -/
theorem scan_items {ι : Type} {text : ι → List Char} {items : List ι}
    (context : List (Located ι) → Context) (hlines : ∀ i ∈ items, IsLine (text i))
    (hsteps : ∀ i ∈ items, ∀ before n,
      (context before).step ⟨n, text i⟩ = .to (context (before ++ [⟨n, i⟩])))
    (before : List (Located ι)) (n : Nat) (rest : List (List Char)) :
    ∃ located m, located.map (·.value) = items ∧
      (context before).scan (numbered n (items.map text ++ rest)) =
        (context (before ++ located)).scan (numbered m rest) := by
  induction items generalizing before n with
  | nil => exact ⟨[], n, rfl, by rw [List.append_nil]; rfl⟩
  | cons i items ih =>
    obtain ⟨located, m, hvalues, hscan⟩ := ih (fun j hj => hlines j (List.mem_cons_of_mem _ hj))
      (fun j hj => hsteps j (List.mem_cons_of_mem _ hj)) (before ++ [⟨n, i⟩]) (n + 1)
    refine ⟨⟨n, i⟩ :: located, m, by rw [List.map_cons, hvalues], ?_⟩
    rw [List.map_cons, List.cons_append,
      numbered_cons_of_isLine (hlines i List.mem_cons_self),
      scan_cons_of_step_to (hsteps i List.mem_cons_self before n), hscan, List.append_assoc,
      List.singleton_append]

/-- A header goes on after the first word with blanks and a name. -/
theorem exists_of_header?_append {keyword w u : List Char} (hkeyword : isName keyword = true)
    (hw : ∀ c ∈ w, isWordChar c = true) (hu : ∀ c ∈ u.head?, isWordChar c = false)
    {header : List Char × List Char} (h : header? keyword (w ++ u) = some header) :
    ∃ after, afterBlanks? u = some after ∧ name? after = some header := by
  simp only [header?, Option.bind_eq_bind, Option.bind_eq_some_iff,
    List.isPrefixOf?_eq_some_iff_append_eq] at h
  obtain ⟨after, hafter, blanks, hblanks, hname⟩ := h
  obtain ⟨b, v, rfl, hb, -⟩ := afterBlanks?_eq_some_iff.mp hblanks
  -- The keyword ends where the word ends: at a blank.
  have hafterWord : afterWord (keyword ++ b :: v) = b :: v := by
    apply afterWord_append (isName_iff.mp hkeyword).2
    exact forall_head?_cons (isWordChar_eq_false_of_isBlank hb)
  rw [hafter, afterWord_append hw hu] at hafterWord
  exact ⟨blanks, hafterWord ▸ hblanks, hname⟩

/-- A line whose first word is followed by no blank begins no block. -/
theorem header?_eq_none {keyword w u : List Char} (hkeyword : isName keyword = true)
    (hw : ∀ c ∈ w, isWordChar c = true)
    (hu : ∀ c ∈ u.head?, isWordChar c = false ∧ isBlank c = false) :
    header? keyword (w ++ u) = none := by
  rw [Option.eq_none_iff_forall_ne_some]
  intro header h
  obtain ⟨after, hafter, -⟩ :=
    exists_of_header?_append hkeyword hw (fun c hc => (hu c hc).1) h
  obtain ⟨b, v, rfl, hb, -⟩ := afterBlanks?_eq_some_iff.mp hafter
  have hnone := (hu b rfl).2
  rw [hb] at hnone
  contradiction

theorem isBlockStart_eq_false {w u : List Char} (hw : ∀ c ∈ w, isWordChar c = true)
    (hu : ∀ c ∈ u.head?, isWordChar c = false ∧ isBlank c = false) :
    isBlockStart (w ++ u) = false := by
  rw [isBlockStart, header?_eq_none isName_entityKeyword hw hu,
    header?_eq_none isName_generalizationKeyword hw hu]
  rfl

theorem isPrefixOf?_headerText (keyword : List Char) (name : String) :
    keyword.isPrefixOf? (headerText keyword name) =
      some (' ' :: (name.toList ++ [' ', '\x7b'])) := by
  rw [headerText_eq]
  exact List.isPrefixOf?_eq_some_iff_append_eq.mpr rfl

theorem header?_headerText {keyword : List Char} {name : String}
    (hname : isName name.toList = true) :
    header? keyword (headerText keyword name) = some (name.toList, [' ', '\x7b']) := by
  have hblanks : afterBlanks? (' ' :: (name.toList ++ [' ', '\x7b'])) =
      some (name.toList ++ [' ', '\x7b']) :=
    afterBlanks?_eq_some_iff.mpr ⟨' ', _, rfl, by decide,
      (dropBlanks_eq_self (isName.startsNonblank_append hname _)).symm⟩
  have hword : name? (name.toList ++ [' ', '\x7b']) = some (name.toList, [' ', '\x7b']) := by
    refine name?_eq_some_iff.mpr ⟨hname, rfl, ?_⟩
    exact forall_head?_cons (by decide)
  simp only [header?, isPrefixOf?_headerText, hblanks, hword, Option.bind_eq_bind,
    Option.bind_some]

theorem beginsWith_headerText (keyword : List Char) (name : String) :
    beginsWith keyword (headerText keyword name) = true := by
  rw [beginsWith, isPrefixOf?_headerText]
  rfl

/-- The first line of an entity opens its block. -/
theorem step_entityHeader {name : String} (hname : isName name.toList = true) (n : Nat) :
    Context.outside.step ⟨n, headerText entityKeyword name⟩ =
      .to (.entityBody (.opened name n)) := by
  change blockStart _ = _
  rw [blockStart, if_pos (beginsWith_headerText _ _), entityStart, header?_headerText hname]
  simp only [nameOf, String.ofList_toList]
  rfl

theorem step_attribute (b : EntityBlock) {d : Declaration} (h : d.IsPrintable) (n : Nat) :
    (Context.entityBody b).step ⟨n, d.text⟩ = .to (.entityBody (b.declare ⟨n, d⟩)) := by
  have hstart : isBlockStart d.text = false := by
    rw [d.text_eq]
    cases hmarkers : markers d.isKey d.content with
    | nil =>
      apply isBlockStart_eq_false (isName_iff.mp h.content.name).2
      exact forall_head?_cons (by decide)
    | cons c rest =>
      apply isBlockStart_eq_false (w := []) (by simp)
      apply forall_head?_cons
      have hc := isMarker_of_mem_markers c (hmarkers ▸ List.mem_cons_self)
      rcases isMarker_iff.mp hc with rfl | rfl | rfl <;> decide
  simp only [Context.step, hstart, entityLine_text h, Bool.false_eq_true, if_false]

theorem step_entityEnd (b : EntityBlock) (n : Nat) :
    (Context.entityBody b).step ⟨n, ['\x7d']⟩ = ⟨[.entity b], .ok .outside⟩ := rfl

/-- The lines of attributes are read as their declarations. -/
theorem scan_attributes (b : EntityBlock) {declarations : List Declaration}
    (h : ∀ d ∈ declarations, d.IsPrintable) (n : Nat) (rest : List (List Char)) :
    ∃ located m, located.map (·.value) = declarations ∧
      (Context.entityBody b).scan (numbered n (declarations.map Declaration.text ++ rest)) =
        (Context.entityBody { b with declarations := b.declarations ++ located }).scan
          (numbered m rest) := by
  apply scan_items fun located => .entityBody { b with declarations := located }
  · intro d hd
    exact isLine_text (h d hd)
  · intro d hd before k
    exact step_attribute { b with declarations := before } (h d hd) k

/-- The lines of an entity are read as a block with its name and its declarations. -/
theorem scan_entityLines {s : Schema} {e : Entity} (hname : isName e.name.toList = true)
    (h : ∀ d ∈ declarations s e, d.IsPrintable) (n : Nat) (rest : List (List Char)) :
    ∃ (b : EntityBlock) (m : Nat), b.name = e.name ∧
      b.declarations.map (·.value) = declarations s e ∧
      Context.outside.scan (numbered n (entityLines s e ++ rest)) =
        ⟨.entity b :: (Context.outside.scan (numbered m rest)).blocks,
          (Context.outside.scan (numbered m rest)).malformed?⟩ := by
  obtain ⟨located, m, hvalues, hscan⟩ := scan_attributes (.opened e.name n) h (n + 1)
    (['\x7d'] :: rest)
  refine ⟨⟨e.name, n, located⟩, m + 1, rfl, hvalues, ?_⟩
  rw [entityLines, List.append_assoc, List.cons_append,
    numbered_cons_of_isLine (isLine_headerText isName_entityKeyword hname),
    scan_cons_of_step_to (step_entityHeader hname n), List.singleton_append, hscan,
    numbered_cons_of_isLine isLine_closeBrace, scan_cons_of_step (step_entityEnd _ _)]
  rfl

/-- A block that says what an entity says. -/
def EntityBlock.Declares (s : Schema) (b : EntityBlock) (e : Entity) : Prop :=
  b.name = e.name ∧ b.declarations.map (·.value) = Source.declarations s e

theorem scan_entities {s : Schema} {entities : List Entity}
    (hnames : ∀ e ∈ entities, isName e.name.toList = true)
    (h : ∀ e ∈ entities, ∀ d ∈ declarations s e, d.IsPrintable) (n : Nat)
    (rest : List (List Char)) :
    ∃ (blocks : List EntityBlock) (m : Nat), List.Forall₂ (EntityBlock.Declares s) blocks entities ∧
      Context.outside.scan (numbered n (entities.flatMap (entityLines s) ++ rest)) =
        ⟨blocks.map .entity ++ (Context.outside.scan (numbered m rest)).blocks,
          (Context.outside.scan (numbered m rest)).malformed?⟩ := by
  induction entities generalizing n with
  | nil => exact ⟨[], n, .nil, rfl⟩
  | cons e entities ih =>
    obtain ⟨b, k, hname, hvalues, hfirst⟩ := scan_entityLines (hnames e List.mem_cons_self)
      (h e List.mem_cons_self) n (entities.flatMap (entityLines s) ++ rest)
    obtain ⟨blocks, m, hblocks, hothers⟩ := ih (fun e he => hnames e (List.mem_cons_of_mem _ he))
      (fun e he => h e (List.mem_cons_of_mem _ he)) k
    refine ⟨b :: blocks, m, .cons ⟨hname, hvalues⟩ hblocks, ?_⟩
    rw [List.flatMap_cons, List.append_assoc, hfirst, hothers]
    rfl

theorem isRunChar_of_isWordChar {c : Char} (h : isWordChar c = true) :
    Token.isRunChar c = true := by
  rw [Token.isRunChar, isBlank_eq_false h, Bool.not_false, Bool.true_and, Option.isNone_iff_eq_none]
  unfold Token.mark?
  split
  · exact absurd h (by decide)
  · exact absurd h (by decide)
  · exact absurd h (by decide)
  · exact absurd h (by decide)
  · rfl

/-- A run ends where no run character follows. -/
theorem ofText_append {w u : List Char} (hne : w ≠ []) (hw : ∀ c ∈ w, Token.isRunChar c = true)
    (hu : ∀ c ∈ u.head?, Token.isRunChar c = false) :
    Token.ofText (w ++ u) = .run w :: Token.ofText u := by
  induction w with
  | nil => contradiction
  | cons c w ih =>
    have hc := hw c List.mem_cons_self
    simp only [Token.isRunChar, Bool.and_eq_true, Bool.not_eq_true',
      Option.isNone_iff_eq_none] at hc
    rw [List.cons_append, Token.ofText]
    simp only [hc.1, hc.2, Bool.false_eq_true, if_false]
    cases w with
    | nil =>
      have hhead : u.head?.any Token.isRunChar = false := by
        cases u with
        | nil => rfl
        | cons d u => simpa using hu d rfl
      rw [List.nil_append, hhead]
    | cons d w =>
      have hd := hw d (by simp)
      rw [ih (by simp) fun c hc => hw c (List.mem_cons_of_mem _ hc)]
      simp [hd]

theorem ofText_append_of_isName {w u : List Char} (h : isName w = true)
    (hu : ∀ c ∈ u.head?, Token.isRunChar c = false) :
    Token.ofText (w ++ u) = .run w :: Token.ofText u := by
  obtain ⟨hne, hall⟩ := isName_iff.mp h
  exact ofText_append hne (fun c hc => isRunChar_of_isWordChar (hall c hc)) hu

theorem ofText_of_isName {w : List Char} (h : isName w = true) : Token.ofText w = [.run w] := by
  have hrun := ofText_append_of_isName (u := []) h (by simp)
  simpa [Token.ofText] using hrun

theorem step_generalizationHeader {name : String} (hname : isName name.toList = true) (n : Nat) :
    Context.outside.step ⟨n, headerText generalizationKeyword name⟩ =
      .to (.generalizationBody (.opened name n)) := by
  change blockStart _ = _
  have hentity : beginsWith entityKeyword (headerText generalizationKeyword name) = false := rfl
  rw [blockStart, hentity, if_neg (by simp), if_pos (beginsWith_headerText _ _),
    generalizationStart, header?_headerText hname]
  simp only [nameOf, String.ofList_toList]
  rfl

theorem step_category (b : GeneralizationBlock) {name : String}
    (hname : isName name.toList = true) (n : Nat) :
    (Context.generalizationBody b).step ⟨n, name.toList⟩ =
      .to (.generalizationBody (b.addCategory ⟨n, name⟩)) := by
  have hstart : isBlockStart name.toList = false := by
    have := isBlockStart_eq_false (u := []) (isName_iff.mp hname).2 (by simp)
    rwa [List.append_nil] at this
  simp only [Context.step, hstart, ofText_of_isName hname, readCategories, hname, nameOf,
    String.ofList_toList, Bool.false_eq_true, if_false, if_true]
  rfl

/-- The lines of categories are read as the categories. -/
theorem scan_categories (b : GeneralizationBlock) {categories : List String}
    (h : ∀ name ∈ categories, isName name.toList = true) (n : Nat) (rest : List (List Char)) :
    ∃ located m, located.map (·.value) = categories ∧
      (Context.generalizationBody b).scan (numbered n (categories.map String.toList ++ rest)) =
        (Context.generalizationBody { b with categories := b.categories ++ located }).scan
          (numbered m rest) := by
  apply scan_items fun located => .generalizationBody { b with categories := located }
  · intro name hname
    exact isLine_of_isName (h name hname)
  · intro name hname before k
    exact step_category { b with categories := before } (h name hname) k

def completeWord : List Char := ['c', 'o', 'm', 'p', 'l', 'e', 't', 'e']

def discriminatorWord : List Char :=
  ['d', 'i', 's', 'c', 'r', 'i', 'm', 'i', 'n', 'a', 't', 'o', 'r']

/-- The tokens of a discriminator, where there is one. -/
def discriminatorTokens : Option String → List Token
  | none => []
  | some name => [.run discriminatorWord, .equals, .run name.toList]

/-- The text of a discriminator, where there is one. -/
def discriminatorText : Option String → List Char
  | none => []
  | some name => ' ' :: (discriminatorWord ++ '=' :: name.toList)

theorem closingText_eq (g : Generalization) :
    closingText g = closedText g.complete ++ discriminatorText g.discriminator := by
  unfold closingText closedText discriminatorText
  cases g.discriminator <;> rfl

theorem ofText_discriminatorText {discriminator : Option String}
    (h : ∀ name ∈ discriminator, isName name.toList = true) :
    Token.ofText (discriminatorText discriminator) = discriminatorTokens discriminator := by
  cases discriminator with
  | none => rfl
  | some name =>
    have hskip : Token.ofText (discriminatorText (some name)) =
        Token.ofText (discriminatorWord ++ '=' :: name.toList) := rfl
    have hequals : Token.ofText ('=' :: name.toList) = .equals :: Token.ofText name.toList := rfl
    rw [hskip, ofText_append_of_isName (by decide) _, hequals, ofText_of_isName (h name rfl)]
    · rfl
    · exact forall_head?_cons (by decide)

/-- The tokens of a closing line. -/
theorem ofText_closingText {g : Generalization} (h : IsWritable g) :
    Token.ofText (closingText g) = .closeBrace ::
      ((if g.complete then [.run completeWord] else []) ++
        discriminatorTokens g.discriminator) := by
  have hmodifiers := ofText_discriminatorText h.discriminator
  rw [closingText_eq, ← hmodifiers]
  cases g.complete with
  | false => rfl
  | true =>
    have hskip : Token.ofText (closedText true ++ discriminatorText g.discriminator) =
        .closeBrace :: Token.ofText (completeWord ++ discriminatorText g.discriminator) := rfl
    rw [hskip, ofText_append_of_isName (by decide)]
    · rfl
    · intro c hc
      cases hdiscriminator : g.discriminator with
      | none =>
        rw [hdiscriminator] at hc
        contradiction
      | some name =>
        rw [hdiscriminator] at hc
        cases hc
        decide

/-- The block of a generalization after its closing line. -/
def closedBlock (b : GeneralizationBlock) (g : Generalization) : GeneralizationBlock :=
  { b with
    completeness := if g.complete then some true else none
    discriminator := g.discriminator }

theorem readModifiers_discriminatorTokens {discriminator : Option String}
    (h : ∀ name ∈ discriminator, isName name.toList = true) {b : GeneralizationBlock}
    (hb : b.discriminator = none) (n : Nat) :
    readModifiers b n (discriminatorTokens discriminator) = .ok { b with discriminator } := by
  cases discriminator with
  | none =>
    obtain ⟨generic, line, categories, completeness, discriminator⟩ := b
    obtain rfl : discriminator = none := hb
    rfl
  | some name =>
    have hword : completeness? discriminatorWord = none := by decide
    have hdiscriminator : isDiscriminator discriminatorWord = true := by decide
    unfold discriminatorTokens readModifiers
    simp only [hword, hdiscriminator, hb, h name rfl, Option.isSome_none,
      Bool.false_eq_true, if_false, if_true, nameOf, String.ofList_toList]
    rfl

theorem readModifiers_tokens {b : GeneralizationBlock} {g : Generalization} (h : IsWritable g)
    (hcompleteness : b.completeness = none) (hdiscriminator : b.discriminator = none) (n : Nat) :
    readModifiers b n ((if g.complete then [.run completeWord] else []) ++
      discriminatorTokens g.discriminator) = .ok (closedBlock b g) := by
  unfold closedBlock
  cases g.complete with
  | false =>
    have hread := readModifiers_discriminatorTokens h.discriminator hdiscriminator n
    rw [← hcompleteness]
    exact hread
  | true =>
    have hword : completeness? completeWord = some true := by decide
    have hread := readModifiers_discriminatorTokens h.discriminator
      (b := { b with completeness := some true }) hdiscriminator n
    simp only [if_true, List.singleton_append]
    unfold readModifiers
    simp only [hword, hcompleteness, Option.isSome_none, Bool.false_eq_true, if_false, hread]

theorem step_generalizationEnd {b : GeneralizationBlock} {g : Generalization} (h : IsWritable g)
    (hcompleteness : b.completeness = none) (hdiscriminator : b.discriminator = none) (n : Nat) :
    (Context.generalizationBody b).step ⟨n, closingText g⟩ =
      .to (.generalizationEnd (closedBlock b g)) := by
  have hstart : isBlockStart (closingText g) = false := by
    rw [closingText_eq]
    apply isBlockStart_eq_false (w := []) (by simp)
    exact forall_head?_cons (by decide)
  simp only [Context.step, hstart, ofText_closingText h, readCategories,
    readModifiers_tokens h hcompleteness hdiscriminator, Bool.false_eq_true, if_false]
  rfl

/-- The lines of a generalization leave its block open for modifiers. -/
theorem scan_generalizationLines {g : Generalization} (h : IsWritable g) (n : Nat)
    (rest : List (List Char)) :
    ∃ located m, located.map (·.value) = g.categories ∧
      Context.outside.scan (numbered n (generalizationLines g ++ rest)) =
        (Context.generalizationEnd (closedBlock ⟨g.generic, n, located, none, none⟩ g)).scan
          (numbered m rest) := by
  obtain ⟨located, m, hvalues, hscan⟩ := scan_categories (.opened g.generic n) h.categories (n + 1)
    (closingText g :: rest)
  refine ⟨located, m + 1, hvalues, ?_⟩
  rw [generalizationLines, List.append_assoc, List.cons_append,
    numbered_cons_of_isLine (isLine_headerText isName_generalizationKeyword h.generic),
    scan_cons_of_step_to (step_generalizationHeader h.generic n), List.singleton_append, hscan,
    numbered_cons_of_isLine (isLine_closingText h),
    scan_cons_of_step_to (step_generalizationEnd h rfl rfl m)]
  rfl

/-- A closed generalization is finished by the next block, or by the end of the source. -/
theorem scan_generalizationEnd (b : GeneralizationBlock) (generalizations : List Generalization)
    (h : ∀ g ∈ generalizations, IsWritable g) (n : Nat) :
    (Context.generalizationEnd b).scan
        (numbered n (generalizations.flatMap generalizationLines)) =
      ⟨.generalization b :: (Context.outside.scan
          (numbered n (generalizations.flatMap generalizationLines))).blocks,
        (Context.outside.scan
          (numbered n (generalizations.flatMap generalizationLines))).malformed?⟩ := by
  cases generalizations with
  | nil => rfl
  | cons g generalizations =>
    have hgeneric := (h g List.mem_cons_self).generic
    have hstep : (Context.generalizationEnd b).step
        ⟨n, headerText generalizationKeyword g.generic⟩ =
          ⟨[.generalization b], .ok (.generalizationBody (.opened g.generic n))⟩ := by
      have hopened : blockStart ⟨n, headerText generalizationKeyword g.generic⟩ =
          .to (.generalizationBody (.opened g.generic n)) := step_generalizationHeader hgeneric n
      simp only [Context.step, beginsWith_headerText, Bool.or_true, if_true, hopened]
      rfl
    rw [List.flatMap_cons, generalizationLines, List.append_assoc, List.cons_append,
      numbered_cons_of_isLine (isLine_headerText isName_generalizationKeyword hgeneric),
      scan_cons_of_step hstep, scan_cons_of_step_to (step_generalizationHeader hgeneric n)]
    rfl

theorem distinct_eq_of_nodup (earlier : List String) (names : List (Located String))
    (h : (names.map (·.value)).Nodup) (hnew : ∀ c ∈ names, c.value ∉ earlier) :
    distinct earlier names = names.map (·.value) ∧ repeats earlier names = [] := by
  induction names generalizing earlier with
  | nil => exact ⟨rfl, rfl⟩
  | cons c rest ih =>
    rw [List.map_cons, List.nodup_cons] at h
    have hc := hnew c List.mem_cons_self
    obtain ⟨hdistinct, hrepeats⟩ := ih (c.value :: earlier) h.2 (by
      intro d hd
      rw [List.mem_cons, not_or]
      refine ⟨?_, hnew d (List.mem_cons_of_mem _ hd)⟩
      intro heq
      exact h.1 (heq ▸ List.mem_map_of_mem hd))
    rw [distinct, repeats, if_neg hc, if_neg hc, hdistinct, hrepeats]
    exact ⟨rfl, rfl⟩

/-- Generalizations are read back one after the other. -/
theorem scan_generalizations {generalizations : List Generalization}
    (h : ∀ g ∈ generalizations, IsWritable g) (n : Nat) :
    ∃ blocks : List GeneralizationBlock, blocks.map (·.generalization) = generalizations ∧
      (∀ b ∈ blocks, b.duplicates = []) ∧
      Context.outside.scan (numbered n (generalizations.flatMap generalizationLines)) =
        ⟨blocks.map .generalization, none⟩ := by
  induction generalizations generalizing n with
  | nil => exact ⟨[], rfl, by simp, rfl⟩
  | cons g generalizations ih =>
    have hg := h g List.mem_cons_self
    have hrest : ∀ g ∈ generalizations, IsWritable g := fun g hg => h g (List.mem_cons_of_mem _ hg)
    obtain ⟨located, m, hvalues, hscan⟩ := scan_generalizationLines hg n
      (generalizations.flatMap generalizationLines)
    obtain ⟨blocks, hblocks, hduplicates, hothers⟩ := ih hrest m
    obtain ⟨hdistinct, hrepeats⟩ := distinct_eq_of_nodup [] located
      (hvalues ▸ hg.distinct) (by simp)
    refine ⟨closedBlock ⟨g.generic, n, located, none, none⟩ g :: blocks, ?_, ?_, ?_⟩
    · have hread : (closedBlock ⟨g.generic, n, located, none, none⟩ g).generalization = g := by
        obtain ⟨generic, categories, complete, discriminator⟩ := g
        cases complete <;> simp_all [closedBlock, GeneralizationBlock.generalization]
      rw [List.map_cons, hread, hblocks]
    · intro b hb
      rcases List.mem_cons.mp hb with rfl | hb
      · rw [GeneralizationBlock.duplicates, closedBlock, hrepeats, List.map_nil]
      · exact hduplicates b hb
    · rw [List.flatMap_cons, hscan, scan_generalizationEnd _ _ hrest, hothers]
      rfl

end EntityDiagram.Source
