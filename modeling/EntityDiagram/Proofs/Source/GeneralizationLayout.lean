import EntityDiagram.Proofs.Source.Separators
import EntityDiagram.Proofs.Source.SignificantLines
import EntityDiagram.Proofs.Source.Surroundings

/-! Generalizations over several lines. However the categories are spread over the lines, and
whether the modifiers follow the closing brace or stand on lines of their own, the block is read as
one generalization; modifiers that repeat a kind are refused wherever they stand. -/
namespace EntityDiagram.Source

open Text

/-- Modifiers on one line, one after the other. -/
def ListsModifiers (modifiers : List Modifier) (t : List Char) : Prop :=
  Separated (isBlank · = true) Modifier.Writes modifiers t

/-- The lines of modifiers after the closing brace. -/
inductive ModifierRows : List Modifier → List (List Char) → Prop
  | none : ModifierRows [] []
  | line {m modifiers row more rows} (listed : ListsModifiers (m :: modifiers) row)
    (rest : ModifierRows more rows) : ModifierRows (m :: modifiers ++ more) (row :: rows)

/-- The lines from what follows the opening brace on. -/
inductive BracedRows : List (List Char) → List Modifier → List (List Char) → Prop
  | line {names row others modifiers rows} (listed : ListsNames names row)
    (rest : BracedRows others modifiers rows) :
    BracedRows (names ++ others) modifiers (row :: rows)
  | close {names t modifiers u more rows} (listed : ListsNames names t)
    (modified : ListsModifiers modifiers u) (rest : ModifierRows more rows) :
    BracedRows names (modifiers ++ more) ((t ++ '\x7d' :: u) :: rows)

/-- The lines of a generalization; the opening brace is on the first one or alone on the second. -/
inductive GeneralizationRows (generic : List Char) :
    List (List Char) → List Modifier → List (List Char) → Prop
  | sameLine {front gap row names modifiers rows}
    (heading : Heading generalizationKeyword generic front) (blank : IsBlankRun gap)
    (braced : BracedRows names modifiers (row :: rows)) :
    GeneralizationRows generic names modifiers ((front ++ (gap ++ '\x7b' :: row)) :: rows)
  | nextLine {front names modifiers rows}
    (heading : Heading generalizationKeyword generic front)
    (braced : BracedRows names modifiers rows) :
    GeneralizationRows generic names modifiers (front :: ['\x7b'] :: rows)

section Modifiers

variable {t u : List Char} {m : Modifier} {modifiers : List Modifier}

/-- Up to an equals sign, the first word of a modifier is its first run. -/
theorem Modifier.Writes.takeWhile_firstRun (h : m.Writes t)
    (hu : ∀ c ∈ u.head?, isBlank c = true) :
    (firstRun (t ++ u)).takeWhile (· ≠ '=') = m.word := by
  cases h with
  | @completeness complete =>
    have hrun : firstRun u = [] := by
      cases u with
      | nil => rfl
      | cons c u => simp [firstRun, hu c rfl]
    have hword : isName (Modifier.completeness complete).word = true := by
      cases complete <;> decide
    rw [firstRun_append hword, hrun, List.append_nil]
    cases complete <;> rfl
  | @discriminator gap₁ gap₂ name blank₁ blank₂ name_isName =>
    have hstop : (firstRun (gap₁ ++ ('=' :: (gap₂ ++ name ++ u)))).takeWhile (· ≠ '=') = [] := by
      cases gap₁ with
      | nil => rfl
      | cons b gap => simp [firstRun, blank₁ b List.mem_cons_self]
    have hfree : ∀ c ∈ discriminatorWord, decide (c ≠ '=') = true := by
      simp [discriminatorWord]
    have hword : (Modifier.discriminator name).word = discriminatorWord := rfl
    rw [show discriminatorWord ++ (gap₁ ++ (['='] ++ (gap₂ ++ name))) ++ u =
      discriminatorWord ++ (gap₁ ++ ('=' :: (gap₂ ++ name ++ u))) by simp,
      firstRun_append (by decide), List.takeWhile_append_of_pos hfree, hstop, hword,
      List.append_nil]

/-- A trimmed line of modifiers begins with the first of them. -/
theorem exists_of_listsModifiers_cons (h : ListsModifiers (m :: modifiers) t)
    (hstart : StartsNonblank t) :
    ∃ written u, t = written ++ u ∧ m.Writes written ∧ ∀ c ∈ u.head?, isBlank c = true := by
  cases h with
  | last written => exact ⟨t, [], (List.append_nil t).symm, written, by simp⟩
  | separator separated rest =>
    have hblank := startsNonblank_cons.mp hstart
    rw [separated] at hblank
    contradiction
  | item written separated rest =>
    refine ⟨_, _, rfl, written, ?_⟩
    exact forall_head?_cons separated

theorem step_modifiers (h : ListsModifiers (m :: modifiers) t) (hstart : StartsNonblank t)
    (b : GeneralizationBlock) (n : Nat) : (Context.generalizationEnd b).step ⟨n, t⟩ =
      ⟨[], (readModifiers b n (Token.ofText t)).map .generalizationEnd⟩ := by
  obtain ⟨written, u, rfl, hwritten, hu⟩ := exists_of_listsModifiers_cons h hstart
  have hkeyword : beginsWith entityKeyword (written ++ u) = false ∧
      beginsWith generalizationKeyword (written ++ u) = false := by
    cases hwritten with
    | @completeness complete => cases complete <;> exact ⟨rfl, rfl⟩
    | discriminator => exact ⟨rfl, rfl⟩
  have hmodifier : beginsWithModifier (written ++ u) = true := by
    rw [beginsWithModifier, hwritten.takeWhile_firstRun hu]
    cases hwritten with
    | @completeness complete => cases complete <;> rfl
    | discriminator => rfl
  simp only [Context.step, hkeyword, hmodifier, Bool.or_self, Bool.false_eq_true, if_false, if_true]

end Modifiers

/-- Lines that lead to an open generalization, or to a malformation. -/
def Context.Reaches (c : Context) (lines : List Line) :
    Except Malformation GeneralizationBlock → Prop
  | .ok b => ∀ rest, c.scan (lines ++ rest) = (generalizationEnd b).scan rest
  | .error cause => ∃ fault : Malformed, fault.cause = cause ∧
      ∀ rest, c.scan (lines ++ rest) = ⟨[], some fault⟩

namespace Context

variable {c next : Context} {line : Line} {lines : List Line}
  {outcome : Except Malformation GeneralizationBlock}

theorem Reaches.cons_of_step_to (h : next.Reaches lines outcome) (hstep : c.step line = .to next) :
    c.Reaches (line :: lines) outcome := by
  cases outcome with
  | ok b =>
    intro rest
    rw [List.cons_append, scan_cons_of_step_to hstep, h rest]
  | error cause =>
    obtain ⟨fault, hcause, hscan⟩ := h
    refine ⟨fault, hcause, fun rest => ?_⟩
    rw [List.cons_append, scan_cons_of_step_to hstep, hscan rest]

/-- After a line of modifiers the other lines go on, unless the modifiers are refused. -/
theorem reaches_of_modifiers {read : Except Malformed GeneralizationBlock}
    (hstep : c.step line = ⟨[], read.map .generalizationEnd⟩)
    {onward : GeneralizationBlock → Except Malformation GeneralizationBlock}
    (honward : ∀ b, (generalizationEnd b).Reaches lines (onward b)) :
    c.Reaches (line :: lines) (read.mapError (·.cause) >>= onward) := by
  cases read with
  | ok b => exact (honward b).cons_of_step_to hstep
  | error fault =>
    refine ⟨fault, rfl, fun rest => ?_⟩
    rw [List.cons_append, scan, hstep]
    rfl

/-- Lines of modifiers are taken one after the other. -/
theorem reaches_of_modifierRows {modifiers : List Modifier} {rows : List (List Char)}
    (h : ModifierRows modifiers rows) (hrows : ∀ row ∈ rows, StartsNonblank row)
    {lines : List Line} (hlines : lines.map (·.text) = rows) (b : GeneralizationBlock) :
    (generalizationEnd b).Reaches lines (Modifier.applyAll b modifiers) := by
  induction h generalizing lines b with
  | none =>
    obtain rfl := List.map_eq_nil_iff.mp hlines
    exact fun _ => rfl
  | @line m modifiers row more rows listed rest ih =>
    obtain ⟨line, others, rfl, rfl, hothers⟩ := List.map_eq_cons_iff.mp hlines
    obtain ⟨hrow, hrest⟩ := List.forall_mem_cons.mp hrows
    rw [Modifier.applyAll_append, ← readModifiers_ofText listed b line.number]
    exact reaches_of_modifiers (step_modifiers listed hrow b line.number)
      fun later => ih hrest hothers later

/-- From the opening brace on, the lines are read as the categories in their order and then as the
modifiers. What follows the brace on its line may even look like the beginning of a block. -/
theorem exists_reaches_of_bracedRows {names : List (List Char)} {modifiers : List Modifier}
    {rows : List (List Char)} (h : BracedRows names modifiers rows)
    (hrows : ∀ row ∈ rows.tail, StartsNonblank row ∧ isBlockStart row = false)
    {c : Context} {line : Line} {others : List Line} {row : List Char}
    (hlines : rows = row :: others.map (·.text)) {b : GeneralizationBlock}
    (hstep : c.step line = ⟨[], readCategories b line.number (Token.ofText row)⟩) :
    ∃ located : List (Located String), located.map (·.value) = names.map nameOf ∧
      c.Reaches (line :: others)
        (Modifier.applyAll { b with categories := b.categories ++ located } modifiers) := by
  induction h generalizing c line others row b with
  | @line names first more modifiers rows listed rest ih =>
    obtain ⟨rfl, rfl⟩ := List.cons.inj hlines
    have hread := readCategories_ofText_append (u := []) listed (by simp) b line.number
    rw [List.append_nil] at hread
    rw [hread] at hstep
    obtain ⟨next, others, hothers⟩ : ∃ next more, others = next :: more := by
      cases others with
      | nil => cases rest
      | cons next more => exact ⟨next, more, rfl⟩
    subst hothers
    obtain ⟨-, hblock⟩ := hrows next.text List.mem_cons_self
    have hnext : (generalizationBody (b.addCategories line.number names)).step next =
        ⟨[], readCategories (b.addCategories line.number names) next.number
          (Token.ofText next.text)⟩ := by
      simp only [step, hblock, Bool.false_eq_true, if_false]
    obtain ⟨located, hvalues, hreaches⟩ :=
      ih (fun row hrow => hrows row (List.mem_of_mem_tail hrow)) rfl hnext
    refine ⟨names.map (fun name => ⟨line.number, nameOf name⟩) ++ located, ?_, ?_⟩
    · simp [hvalues]
    · rw [← List.append_assoc]
      exact hreaches.cons_of_step_to hstep
  | @close names t modifiers u more rows listed modified rest =>
    obtain ⟨rfl, rfl⟩ := List.cons.inj hlines
    have hbrace : ∀ d ∈ ('\x7d' :: u).head?, Token.isRunChar d = false :=
      forall_head?_cons (by decide)
    have hclose : Token.ofText ('\x7d' :: u) = .closeBrace :: Token.ofText u := rfl
    rw [readCategories_ofText_append listed hbrace, hclose, readCategories] at hstep
    refine ⟨names.map fun name => ⟨line.number, nameOf name⟩, by simp, ?_⟩
    rw [Modifier.applyAll_append, ← readModifiers_ofText modified _ line.number]
    exact reaches_of_modifiers hstep
      fun later => reaches_of_modifierRows rest (fun row hrow => (hrows row hrow).1) rfl later

theorem step_generalizationHeading {generic front : List Char}
    (h : Heading generalizationKeyword generic front) {u : List Char}
    (hu : ∀ c ∈ u.head?, isWordChar c = false) (n : Nat) : outside.step ⟨n, front ++ u⟩ =
      match Token.ofText u with
      | [] => .to (.generalizationHeader (.opened (nameOf generic) n))
      | .openBrace :: tokens => ⟨[], readCategories (.opened (nameOf generic) n) n tokens⟩
      | token :: _ => ⟨[], .error ⟨.openBraceExpected (nameOf generic), n, token.text⟩⟩ := by
  have hentity : beginsWith entityKeyword (front ++ u) = false := by
    cases h
    rfl
  simp only [step, blockStart, hentity, h.beginsWith_eq u, generalizationStart, h.header?_eq hu,
    Bool.false_eq_true, if_false, if_true]
  rfl

/-- The lines of a generalization lead to its block. -/
theorem exists_reaches_of_generalizationRows {generic : List Char} {names : List (List Char)}
    {modifiers : List Modifier} {rows : List (List Char)}
    (h : GeneralizationRows generic names modifiers rows)
    (hrows : ∀ row ∈ rows.tail, StartsNonblank row ∧ isBlockStart row = false)
    {lines : List Line} (hlines : lines.map (·.text) = rows) :
    ∃ (number : Nat) (located : List (Located String)),
      located.map (·.value) = names.map nameOf ∧
      outside.Reaches lines
        (Modifier.applyAll ⟨nameOf generic, number, located, none, none⟩ modifiers) := by
  cases h with
  | @sameLine front gap row _ _ rows heading blank braced =>
    obtain ⟨line, others, rfl, htext, rfl⟩ := List.map_eq_cons_iff.mp hlines
    have hbrace : ∀ c ∈ (gap ++ '\x7b' :: row).head?, isWordChar c = false := by
      apply head?_blankRun_append blank
      exact forall_head?_cons (by decide)
    have hstep : outside.step line =
        ⟨[], readCategories (.opened (nameOf generic) line.number) line.number
          (Token.ofText row)⟩ := by
      have hheading := step_generalizationHeading heading hbrace line.number
      rw [← htext, ofText_blankRun_append blank] at hheading
      exact hheading
    obtain ⟨located, hvalues, hreaches⟩ := exists_reaches_of_bracedRows braced hrows rfl hstep
    exact ⟨line.number, located, hvalues, hreaches⟩
  | @nextLine front _ _ rows heading braced =>
    obtain ⟨line, others, rfl, htext, hothers⟩ := List.map_eq_cons_iff.mp hlines
    obtain ⟨brace, more, rfl, hbrace, rfl⟩ := List.map_eq_cons_iff.mp hothers
    obtain ⟨first, later, rfl⟩ : ∃ first later, more = first :: later := by
      cases more with
      | nil => cases braced
      | cons first later => exact ⟨first, later, rfl⟩
    have hheader : outside.step line =
        .to (.generalizationHeader (.opened (nameOf generic) line.number)) := by
      have hheading := step_generalizationHeading heading (u := []) (by simp) line.number
      rw [List.append_nil, ← htext] at hheading
      exact hheading
    have hopen : (generalizationHeader (.opened (nameOf generic) line.number)).step brace =
        .to (.generalizationBody (.opened (nameOf generic) line.number)) := if_pos hbrace
    have hrows : ∀ row ∈ (first :: later).map (·.text),
        StartsNonblank row ∧ isBlockStart row = false :=
      fun row hrow => hrows row (List.mem_cons_of_mem _ hrow)
    have hfirst : (generalizationBody (.opened (nameOf generic) line.number)).step first =
        ⟨[], readCategories (.opened (nameOf generic) line.number) first.number
          (Token.ofText first.text)⟩ := by
      simp only [step, (hrows first.text List.mem_cons_self).2, Bool.false_eq_true, if_false]
    obtain ⟨located, hvalues, hreaches⟩ := exists_reaches_of_bracedRows braced
      (fun row hrow => hrows row (List.mem_of_mem_tail hrow)) rfl hfirst
    exact ⟨line.number, located, hvalues,
      (hreaches.cons_of_step_to hopen).cons_of_step_to hheader⟩

end Context

/-- The members of a list that stand in it earlier, too. -/
def laterOccurrences (names : List String) : List String :=
  (names.zipIdx.filter fun p => p.1 ∈ names.take p.2).map (·.1)

theorem distinct_eq_eraseDups (earlier : List String) (names : List (Located String)) :
    distinct earlier names = ((names.map (·.value)).filter (· ∉ earlier)).eraseDups := by
  induction names generalizing earlier with
  | nil => rfl
  | cons name rest ih =>
    rw [distinct, List.map_cons, List.filter_cons]
    split_ifs with hmem hmem' hmem'
    · simp [hmem] at hmem'
    · exact ih earlier
    · rw [List.eraseDups_cons, ih, List.filter_filter]
      congr 3
      funext other
      by_cases hother : other = name.value <;> simp [hother]
    · simp [hmem] at hmem'

theorem map_value_repeats (earlier : List String) (names : List (Located String)) :
    (repeats earlier names).map (·.value) = ((names.map (·.value)).zipIdx.filter fun p =>
      p.1 ∈ earlier ∨ p.1 ∈ (names.map (·.value)).take p.2).map (·.1) := by
  induction names generalizing earlier with
  | nil => rfl
  | cons name rest ih =>
    have hstep (p : String × Nat → Bool) (values : List String) :
        ((values.zipIdx.map (Prod.map id (· + 1))).filter p).map (·.1) =
          (values.zipIdx.filter fun q => p (q.1, q.2 + 1)).map (·.1) := by
      rw [List.filter_map, List.map_map]
      rfl
    rw [repeats, List.map_cons, List.zipIdx_cons', List.filter_cons]
    by_cases hmem : name.value ∈ earlier
    · have hsame : ∀ q : String × Nat, decide (q.1 ∈ earlier ∨
          q.1 ∈ (name.value :: rest.map (·.value)).take (q.2 + 1)) =
          decide (q.1 ∈ earlier ∨ q.1 ∈ (rest.map (·.value)).take q.2) := by
        intro q
        by_cases hq : q.1 = name.value <;> simp [hq, hmem]
      simp only [hmem, if_true, true_or, decide_true, List.map_cons, hstep, hsame, ih]
    · have hsame : ∀ q : String × Nat, decide (q.1 ∈ earlier ∨
          q.1 ∈ (name.value :: rest.map (·.value)).take (q.2 + 1)) =
          decide (q.1 ∈ name.value :: earlier ∨ q.1 ∈ (rest.map (·.value)).take q.2) := by
        intro q
        simp only [List.take_succ_cons, List.mem_cons, decide_eq_decide]
        tauto
      simp only [hmem, if_false, List.take_zero, List.not_mem_nil, or_self, decide_false,
        Bool.false_eq_true, hstep, hsame, ih]

/-- A closed generalization with some categories and modifiers says what they say. -/
theorem generalization_eq {generic : List Char} {number : Nat} {located : List (Located String)}
    {names : List (List Char)} (hvalues : located.map (·.value) = names.map nameOf)
    (completeness : Option Bool) (discriminator : Option String) :
    (GeneralizationBlock.mk (nameOf generic) number located completeness
        discriminator).generalization =
      ⟨nameOf generic, (names.map nameOf).eraseDups, completeness.getD false, discriminator⟩ := by
  rw [GeneralizationBlock.generalization, distinct_eq_eraseDups, hvalues]
  simp

theorem map_duplicates_eq {generic : List Char} {number : Nat} {located : List (Located String)}
    {names : List (List Char)} (hvalues : located.map (·.value) = names.map nameOf)
    (completeness : Option Bool) (discriminator : Option String) :
    (GeneralizationBlock.mk (nameOf generic) number located completeness
      discriminator).duplicates.map (fun d => (d.category, d.generic)) =
      (laterOccurrences (names.map nameOf)).map (·, nameOf generic) := by
  have hrepeats := map_value_repeats [] located
  simp only [hvalues, List.not_mem_nil, false_or] at hrepeats
  rw [laterOccurrences, ← hrepeats, GeneralizationBlock.duplicates, List.map_map, List.map_map]
  rfl

section Source

variable {s t source : String} {raws : List (List Char)} {generic : List Char}
  {names : List (List Char)} {modifiers : List Modifier} {blocks others : List Block}

/-- The lines of a source with others in the middle. -/
theorem exists_significantLines_eq
    (h : lines source.toList = lines s.toList ++ raws ++ lines t.toList) :
    ∃ (middle : List Line) (shift : Nat), middle.map (·.text) = trimmed raws ∧
      significantLines source.toList = significantLines s.toList ++
        (middle ++ (significantLines t.toList).map (·.renumber (· + shift))) := by
  refine ⟨_, (lines s.toList).length + raws.length,
    map_text_numbered (1 + (lines s.toList).length) raws, ?_⟩
  have htail := numbered_add 1 ((lines s.toList).length + raws.length) (lines t.toList)
  rw [significantLines, h, numbered_append, numbered_append, List.append_assoc,
    List.length_append, htail]
  rfl

/-- The first line of a generalization begins a block. -/
theorem GeneralizationRows.beginsBlock {rows : List (List Char)}
    (h : GeneralizationRows generic names modifiers rows) {lines : List Line}
    (hlines : lines.map (·.text) = rows) (rest : List Line) :
    ∀ line ∈ (lines ++ rest).head?, BeginsBlock line.text := by
  have hfirst : ∃ front u more, rows = (front ++ u) :: more ∧
      Heading generalizationKeyword generic front := by
    cases h with
    | sameLine heading => exact ⟨_, _, _, rfl, heading⟩
    | @nextLine front _ _ rows heading =>
      exact ⟨front, [], ['\x7b'] :: rows, by rw [List.append_nil], heading⟩
  obtain ⟨front, u, more, rfl, hfront⟩ := hfirst
  obtain ⟨line, others, rfl, htext, -⟩ := List.map_eq_cons_iff.mp hlines
  intro first hline
  cases hline
  rw [BeginsBlock, htext, hfront.beginsWith_eq u, Bool.or_true]

/-- What is read of a source with a generalization in the middle. -/
theorem exists_scan_generalization
    (hsource : lines source.toList = lines s.toList ++ raws ++ lines t.toList)
    (hs : readBlocks s.toList = .ok blocks)
    (hrows : GeneralizationRows generic names modifiers (trimmed raws))
    (hcontinued : ∀ row ∈ (trimmed raws).tail, isBlockStart row = false) :
    ∃ (number shift : Nat) (located : List (Located String)),
      located.map (·.value) = names.map nameOf ∧
      match Modifier.applyAll ⟨nameOf generic, number, located, none, none⟩ modifiers with
      | .ok b => Context.outside.scan (significantLines source.toList) =
          ⟨blocks ++ ((Context.generalizationEnd b).scan
              ((significantLines t.toList).map (·.renumber (· + shift)))).blocks,
            ((Context.generalizationEnd b).scan
              ((significantLines t.toList).map (·.renumber (· + shift)))).malformed?⟩
      | .error cause => ∃ fault : Malformed, fault.cause = cause ∧
          Context.outside.scan (significantLines source.toList) = ⟨blocks, some fault⟩ := by
  obtain ⟨middle, shift, hmiddle, hlines⟩ := exists_significantLines_eq hsource
  have htrimmed : ∀ row ∈ (trimmed raws).tail, StartsNonblank row ∧ isBlockStart row = false :=
    fun row hrow => ⟨(trimmed_parts (List.mem_of_mem_tail hrow)).1, hcontinued row hrow⟩
  obtain ⟨number, located, hvalues, hreaches⟩ :=
    Context.exists_reaches_of_generalizationRows hrows htrimmed hmiddle
  refine ⟨number, shift, located, hvalues, ?_⟩
  have hscan := Context.scan_append_of_beginsBlock ((readBlocks_eq_ok_iff _ _).mp hs).1
    (hrows.beginsBlock hmiddle ((significantLines t.toList).map (·.renumber (· + shift))))
  rw [← hlines] at hscan
  cases houtcome : Modifier.applyAll ⟨nameOf generic, number, located, none, none⟩ modifiers with
  | ok b =>
    rw [houtcome] at hreaches
    rw [hscan, hreaches]
  | error cause =>
    rw [houtcome] at hreaches
    obtain ⟨fault, hcause, hfault⟩ := hreaches
    refine ⟨fault, hcause, ?_⟩
    rw [hscan, hfault, List.append_nil]

theorem filterMap_entity?_cons_generalization (b : GeneralizationBlock) :
    (blocks ++ .generalization b :: others).filterMap Block.entity? =
      (blocks ++ others).filterMap Block.entity? := by
  rw [List.filterMap_append, List.filterMap_append]
  rfl

/-- A source with the blocks of two others and a generalization between them repeats no name that
these do not share. -/
theorem hasDistinctNames_of_disjoint {b : GeneralizationBlock}
    (hs : readBlocks s.toList = .ok blocks) (ht : readBlocks t.toList = .ok others)
    (hdisjoint : (Block.names blocks).Disjoint (Block.names others)) (f : Nat → Nat) :
    (Block.schema (blocks ++ .generalization b :: others.map (·.renumber f))).HasDistinctNames := by
  have hdistinct := (((readBlocks_eq_ok_iff _ _).mp hs).2.append_iff
    ((readBlocks_eq_ok_iff _ _).mp ht).2).mpr hdisjoint
  have hentities :
      (Block.schema (blocks ++ .generalization b :: others.map (·.renumber f))).entities =
        (Block.schema blocks ++ Block.schema others).entities := by
    rw [Block.schema, filterMap_entity?_cons_generalization, ← Block.schema_renumber f others,
      List.filterMap_append, List.map_append]
    rfl
  constructor
  · rw [hentities]
    exact hdistinct.entities
  · rw [hentities]
    exact hdistinct.attributes

theorem reported_of_readBlocks (h : readBlocks source.toList = .ok blocks) :
    reported source = Block.duplicateCategories blocks := by
  obtain ⟨hscan, hdistinct⟩ := (readBlocks_eq_ok_iff _ _).mp h
  rw [reported, Context.blocksRead_of_scan hscan,
    beforeRepeat_of_repeatError? ((repeatError?_eq_none_iff_hasDistinctNames blocks).mpr hdistinct)]

theorem duplicateCategories_append_cons (b : GeneralizationBlock) :
    Block.duplicateCategories (blocks ++ .generalization b :: others) =
      Block.duplicateCategories blocks ++ (b.duplicates ++ Block.duplicateCategories others) := by
  rw [Block.duplicateCategories, List.filterMap_append, List.flatMap_append]
  rfl

/-- A generalization among other blocks, its categories between the braces with any blanks, commas
and line breaks, its modifiers in any order after the closing brace. With each kind of modifier at
most once it is one block with the categories at their first occurrences, and every later occurrence
is reported once; with a kind of modifier given twice the source is refused. -/
theorem readBlocks_generalization
    (hsource : lines source.toList = lines s.toList ++ raws ++ lines t.toList)
    (hs : readBlocks s.toList = .ok blocks)
    (hrows : GeneralizationRows generic names modifiers (trimmed raws))
    (hcontinued : ∀ row ∈ (trimmed raws).tail, isBlockStart row = false) :
    (Modifier.AtMostOnce modifiers → ∀ others, readBlocks t.toList = .ok others →
      (Block.names blocks).Disjoint (Block.names others) →
      ∃ (b : GeneralizationBlock) (after : List Block),
        (∃ shift, after = others.map (·.renumber (· + shift))) ∧
        readBlocks source.toList = .ok (blocks ++ .generalization b :: after) ∧
        b.generalization = ⟨nameOf generic, (names.map nameOf).eraseDups,
          (Modifier.completenesses modifiers).head? = some true,
          (Modifier.discriminators modifiers).head?.map nameOf⟩ ∧
        reported source = Block.duplicateCategories blocks ++
          (b.duplicates ++ Block.duplicateCategories after) ∧
        b.duplicates.map (fun d => (d.category, d.generic)) =
          (laterOccurrences (names.map nameOf)).map (·, nameOf generic)) ∧
    (¬ Modifier.AtMostOnce modifiers → ∃ fault : Malformed,
      parse source = .error (.malformed fault) ∧
      (fault.cause = .repeatedCompleteness ∨ fault.cause = .repeatedDiscriminator)) := by
  obtain ⟨number, shift, located, hvalues, hscan⟩ :=
    exists_scan_generalization hsource hs hrows hcontinued
  constructor
  · intro honce others ht hdisjoint
    rw [Modifier.applyAll_fresh_eq_ok _ _ _ honce] at hscan
    have hmoved := Context.scan_renumber (· + shift) .outside (significantLines t.toList)
    rw [((readBlocks_eq_ok_iff _ _).mp ht).1] at hmoved
    change Context.outside.scan _ = ⟨others.map (·.renumber (· + shift)), none⟩ at hmoved
    simp only [Context.scan_generalizationEnd_of_beginsBlock (Context.beginsBlock_of_scan hmoved),
      hmoved] at hscan
    have hread := (readBlocks_eq_ok_iff _ _).mpr
      ⟨hscan, hasDistinctNames_of_disjoint hs ht hdisjoint (· + shift)⟩
    refine ⟨_, _, ⟨shift, rfl⟩, hread, ?_, ?_, map_duplicates_eq hvalues _ _⟩
    · rw [generalization_eq hvalues]
      cases (Modifier.completenesses modifiers).head? with
      | none => rfl
      | some complete => cases complete <;> rfl
    · rw [reported_of_readBlocks hread, duplicateCategories_append_cons]
  · intro hrepeated
    obtain ⟨cause, hcause, hkind⟩ := Modifier.exists_applyAll_fresh_eq_error (nameOf generic)
      number located hrepeated
    rw [hcause] at hscan
    obtain ⟨fault, rfl, hfault⟩ := hscan
    refine ⟨fault, ?_, hkind⟩
    have hnone := (repeatError?_eq_none_iff_hasDistinctNames blocks).mpr
      ((readBlocks_eq_ok_iff _ _).mp hs).2
    rw [parse_eq_result, hfault, Scan.result, hnone]

/-- Categories and modifiers over three lines, and the completeness word once more on a fourth. -/
theorem readBlocks_generalization_over_lines :
    let raws := ["Generalization P \x7b A,,B".toList, "B A \x7d discriminator = kind".toList,
      "\tcomplete".toList]
    let source := "\n".intercalate ["Generalization P \x7b A,,B", "B A \x7d discriminator = kind",
      "\tcomplete"]
    let repeated := source ++ "\nincomplete"
    GeneralizationRows ['P'] [['A'], ['B'], ['B'], ['A']]
      [.discriminator "kind".toList, .completeness true] (trimmed raws) ∧
    (∃ b, readBlocks source.toList = .ok [.generalization b] ∧
      b.generalization = ⟨"P", ["A", "B"], true, some "kind"⟩ ∧
      (reported source).map (fun d => (d.category, d.generic)) = [("B", "P"), ("A", "P")]) ∧
    ∃ fault : Malformed, parse repeated = .error (.malformed fault) ∧
      (fault.cause = .repeatedCompleteness ∨ fault.cause = .repeatedDiscriminator) := by
  intro raws source repeated
  have hname (c : Char) (h : isWordChar c = true) : WritesName [c] [c] := ⟨by simp [isName, h], rfl⟩
  have hheading : Heading generalizationKeyword ['P'] (generalizationKeyword ++ ([' '] ++ ['P'])) :=
    .heading (by simp) isBlankRun_space (by decide)
  have hfirst : ListsNames [['A'], ['B']] " A,,B".toList :=
    .separator (.inl rfl) (.item (hname 'A' (by decide)) (.inr rfl)
      (.separator (.inr rfl) (.last (hname 'B' (by decide)))))
  have hsecond : ListsNames [['B'], ['A']] "B A ".toList :=
    .item (hname 'B' (by decide)) (.inl rfl) (.item (hname 'A' (by decide)) (.inl rfl) .empty)
  have hdiscriminator : ListsModifiers [.discriminator "kind".toList]
      " discriminator = kind".toList :=
    .separator rfl (.last (.discriminator isBlankRun_space isBlankRun_space (by decide)))
  have hcomplete : ListsModifiers [.completeness true] "complete".toList := .last .completeness
  have hincomplete : ListsModifiers [.completeness false] "incomplete".toList := .last .completeness
  have hempty : readBlocks "".toList = .ok [] := by decide +kernel
  have hrows : GeneralizationRows ['P'] [['A'], ['B'], ['B'], ['A']]
      [.discriminator "kind".toList, .completeness true] (trimmed raws) := by
    have htrimmed : trimmed raws =
        [generalizationKeyword ++ ([' '] ++ ['P']) ++ ([' '] ++ '\x7b' :: " A,,B".toList),
          "B A ".toList ++ '\x7d' :: " discriminator = kind".toList, "complete".toList] := by
      decide +kernel
    rw [htrimmed]
    exact .sameLine hheading isBlankRun_space
      (.line hfirst (.close hsecond hdiscriminator (.line hcomplete .none)))
  have hmore : GeneralizationRows ['P'] [['A'], ['B'], ['B'], ['A']]
      [.discriminator "kind".toList, .completeness true, .completeness false]
      (trimmed (raws ++ ["incomplete".toList])) := by
    have htrimmed : trimmed (raws ++ ["incomplete".toList]) =
        [generalizationKeyword ++ ([' '] ++ ['P']) ++ ([' '] ++ '\x7b' :: " A,,B".toList),
          "B A ".toList ++ '\x7d' :: " discriminator = kind".toList, "complete".toList,
          "incomplete".toList] := by
      decide +kernel
    rw [htrimmed]
    exact .sameLine hheading isBlankRun_space
      (.line hfirst (.close hsecond hdiscriminator (.line hcomplete (.line hincomplete .none))))
  have hsource : lines source.toList = lines "".toList ++ raws ++ lines "".toList := by
    decide +kernel
  have hrepeated : lines repeated.toList =
      lines "".toList ++ (raws ++ ["incomplete".toList]) ++ lines "".toList := by decide +kernel
  refine ⟨hrows, ?_, ?_⟩
  · obtain ⟨b, after, ⟨shift, rfl⟩, hread, hgeneralization, hreported, hduplicates⟩ :=
      (readBlocks_generalization hsource hempty hrows (by decide +kernel)).1
        (by decide) [] hempty (List.disjoint_nil_left _)
    refine ⟨b, hread, ?_, ?_⟩
    · rw [hgeneralization]
      decide +kernel
    · have hnone : Block.duplicateCategories [] = [] := rfl
      rw [hreported, List.map_nil, hnone, List.nil_append, List.append_nil, hduplicates]
      decide +kernel
  · exact (readBlocks_generalization hrepeated hempty hmore (by decide +kernel)).2 (by decide)

end Source

end EntityDiagram.Source
