import EntityDiagram.Proofs.Source.CanonicalBlocks
import EntityDiagram.Proofs.Source.SignificantLines
import EntityDiagram.Proofs.Source.Surroundings

/-! Where the braces of an entity block stand. The opening brace and the first attribute may each
go on the line before or begin their own, and so may the closing brace; all of these layouts are
read as one block. -/
namespace EntityDiagram.Source

open Text

/-- A trimmed line that is accepted as an attribute on its own. -/
structure IsAttributeText (text : List Char) (d : Declaration) : Prop where
  starts : StartsNonblank text
  ends : EndsNonblank text
  accepted : ∀ n, readAttribute ⟨n, text⟩ = .ok ⟨n, d⟩

/-- The lines from the first attribute on, down to the closing brace. -/
inductive BodyRows : List (List Char) → List (List Char) → Prop
  | close : BodyRows [] [['\x7d']]
  | last {a gap} (blank : IsBlankRun gap) : BodyRows [a] [a ++ (gap ++ ['\x7d'])]
  | line {a attributes rows} (rest : BodyRows attributes rows) :
    BodyRows (a :: attributes) (a :: rows)

/-- The lines from the one on that the opening brace ends, or that it begins. -/
inductive OpenedRows (front : List Char) : List (List Char) → List (List Char) → Prop
  | own {attributes rows} (body : BodyRows attributes rows) :
    OpenedRows front attributes (front :: rows)
  | joined {gap attributes row rows} (blank : IsBlankRun gap)
    (body : BodyRows attributes (row :: rows)) :
    OpenedRows front attributes ((front ++ (gap ++ row)) :: rows)

/-- The lines of an entity block with some attributes, in any of its layouts. -/
inductive LayoutRows (name : List Char) : List (List Char) → List (List Char) → Prop
  | sameLine {front gap attributes rows} (heading : Heading entityKeyword name front)
    (blank : IsBlankRun gap) (opened : OpenedRows (front ++ (gap ++ ['\x7b'])) attributes rows) :
    LayoutRows name attributes rows
  | nextLine {front attributes rows} (heading : Heading entityKeyword name front)
    (opened : OpenedRows ['\x7b'] attributes rows) : LayoutRows name attributes (front :: rows)

section Attributes

variable {keyword w text gap : List Char} {d : Declaration}

/-- A name before a colon begins no block, not even when it is a keyword. -/
theorem header?_colon_eq_none (hkeyword : isName keyword = true) (hw : isName w = true)
    (hgap : IsBlankRun gap) (u : List Char) :
    header? keyword (w ++ (gap ++ ([':'] ++ u))) = none := by
  rw [Option.eq_none_iff_forall_ne_some]
  intro header h
  have hcolon : ∀ c ∈ ([':'] ++ u).head?, isWordChar c = false :=
    forall_head?_cons (by decide)
  obtain ⟨after, hafter, hname⟩ := exists_of_header?_append hkeyword (isName_iff.mp hw).2
    (head?_blankRun_append hgap hcolon) h
  obtain ⟨blanks, hne, hblanks, hsplit⟩ := exists_of_afterBlanks? hafter
  -- What follows the blanks is the colon, which begins no name.
  have hstart : StartsNonblank ([':'] ++ u) := startsNonblank_cons.mpr (by decide)
  have hcut : some ([':'] ++ u) = some after := by
    rw [← hafter]
    symm
    apply afterBlanks?_append hgap _ hstart
    rintro rfl
    obtain ⟨b, blanks, rfl⟩ := List.exists_cons_of_ne_nil hne
    have hb : isBlank b = true := hblanks b List.mem_cons_self
    cases hsplit
    exact absurd hb (by decide)
  obtain rfl := Option.some.inj hcut
  simp [name?, word] at hname
  exact absurd hname.1 (by decide)

theorem AttributeGrammar.isBlockStart_append {a : AttributeLine} (h : AttributeGrammar text a)
    (hstart : StartsNonblank text) (u : List Char) : isBlockStart (text ++ u) = false := by
  cases h with
  | @line front name gap₁ gap₂ type clause key marked name_isName blank₁ blank₂ typed keyed =>
    simp only [List.append_assoc]
    cases front with
    | nil =>
      rw [isBlockStart, List.nil_append,
        header?_colon_eq_none isName_entityKeyword name_isName blank₁,
        header?_colon_eq_none isName_generalizationKeyword name_isName blank₁]
      rfl
    | cons c front =>
      have hblank : isBlank c = false := hstart c rfl
      have hmarker : isMarker c = true := by
        obtain hmarker | hcblank := marked.mem c List.mem_cons_self
        · exact hmarker
        · rw [hblank] at hcblank
          contradiction
      apply isBlockStart_eq_false (w := []) (by simp)
      apply forall_head?_cons
      refine ⟨?_, hblank⟩
      obtain rfl | rfl | rfl := isMarker_iff.mp hmarker <;> decide

theorem isAttributeText_of_readAttribute (hstarts : StartsNonblank text) (hends : EndsNonblank text)
    (h : readAttribute ⟨0, text⟩ = .ok ⟨0, d⟩) : IsAttributeText text d := by
  refine ⟨hstarts, hends, fun n => ?_⟩
  have hmoved := readAttribute_renumber (fun _ => n) ⟨0, text⟩
  rw [h] at hmoved
  exact hmoved

theorem IsAttributeText.exists_grammar (h : IsAttributeText text d) :
    ∃ a, AttributeGrammar text a ∧ d = a.declaration := by
  obtain ⟨a, ha, hd⟩ := exists_attributeGrammar_of_readAttribute (h.accepted 0) h.ends
  exact ⟨a, ha, congrArg Located.value hd⟩

theorem IsAttributeText.step_eq (h : IsAttributeText text d) (b : EntityBlock) :
    (Context.entityBody b).step ⟨0, text⟩ = .to (.entityBody (b.declare ⟨0, d⟩)) := by
  obtain ⟨a, ha, rfl⟩ := h.exists_grammar
  have hstart := ha.isBlockStart_append h.starts []
  rw [List.append_nil] at hstart
  simp only [Context.step, hstart, ha.entityLine_eq, Bool.false_eq_true, if_false]

/-- An attribute line that a closing brace ends is read as the attribute. -/
theorem IsAttributeText.step_close_eq (h : IsAttributeText text d) (hgap : IsBlankRun gap)
    (b : EntityBlock) : (Context.entityBody b).step ⟨0, text ++ (gap ++ ['\x7d'])⟩ =
      ⟨[.entity (b.declare ⟨0, d⟩)], .ok .outside⟩ := by
  obtain ⟨a, ha, hd⟩ := h.exists_grammar
  have hne : text.isEmpty = false := by
    obtain ⟨rest, c, rfl, -⟩ := ha.endsLine
    simp
  have hsplit : splitClose (text ++ (gap ++ ['\x7d'])) = (text, true) := by
    have hdrop : (text ++ (gap ++ ['\x7d'])).dropLast = text ++ gap := by
      rw [← List.append_assoc, List.dropLast_concat]
    rw [splitClose, if_pos (by simp), hdrop, dropLastBlanks_append_blankRun h.ends hgap]
  simp only [Context.step, ha.isBlockStart_append h.starts, entityLine, hsplit, hne, h.accepted,
    Bool.false_eq_true, if_false, if_true]

end Attributes

section Layouts

variable {name front row gap : List Char} {attributes rows : List (List Char)}
  {declarations : List Declaration}

/-- A block with more declarations. -/
def EntityBlock.declareAll (b : EntityBlock) (declarations : List Declaration) : EntityBlock :=
  { b with declarations := b.declarations ++ declarations.map (Located.mk 0) }

@[simp] theorem EntityBlock.declareAll_nil (b : EntityBlock) : b.declareAll [] = b := by
  simp [declareAll]

theorem EntityBlock.declareAll_cons (b : EntityBlock) (d : Declaration)
    (declarations : List Declaration) :
    b.declareAll (d :: declarations) = (b.declare ⟨0, d⟩).declareAll declarations := by
  simp [declareAll, declare]

/-- The lines of a body are read as the attributes in their order, and close the block. -/
theorem BodyRows.scan_eq (h : BodyRows attributes rows)
    (hattributes : List.Forall₂ IsAttributeText attributes declarations) (b : EntityBlock)
    (rest : List Line) : (Context.entityBody b).scan (unnumbered rows ++ rest) =
      ⟨.entity (b.declareAll declarations) :: (Context.outside.scan rest).blocks,
        (Context.outside.scan rest).malformed?⟩ := by
  induction h generalizing declarations b with
  | close =>
    cases hattributes
    rw [EntityBlock.declareAll_nil]
    exact scan_cons_of_step (step_entityEnd b 0) rest
  | last blank =>
    cases hattributes with
    | cons ha hnil =>
      cases hnil
      rw [EntityBlock.declareAll_cons, EntityBlock.declareAll_nil]
      exact scan_cons_of_step (ha.step_close_eq blank b) rest
  | line body ih =>
    cases hattributes with
    | cons ha hrest =>
      rw [EntityBlock.declareAll_cons, ← ih hrest]
      exact scan_cons_of_step_to (ha.step_eq b) _

/-- The first line of a body is trimmed and begins no block. -/
theorem BodyRows.head_parts (h : BodyRows attributes (row :: rows))
    (hattributes : List.Forall₂ IsAttributeText attributes declarations) :
    StartsNonblank row ∧ EndsNonblank row ∧ isBlockStart row = false := by
  cases h with
  | close =>
    exact ⟨startsNonblank_cons.mpr rfl, endsNonblank_append_singleton (t := []).mpr rfl, rfl⟩
  | @last a gap blank =>
    cases hattributes with
    | cons ha _ =>
      obtain ⟨grammar, hgrammar, -⟩ := ha.exists_grammar
      refine ⟨?_, ?_, hgrammar.isBlockStart_append ha.starts _⟩
      · obtain ⟨front, c, rfl, -⟩ := hgrammar.endsLine
        intro d hd
        rw [List.head?_append_of_ne_nil _ (by simp)] at hd
        exact ha.starts d hd
      · rw [← List.append_assoc]
        exact endsNonblank_append_singleton.mpr rfl
  | line body =>
    cases hattributes with
    | cons ha _ =>
      obtain ⟨grammar, hgrammar, -⟩ := ha.exists_grammar
      have hstart := hgrammar.isBlockStart_append ha.starts []
      rw [List.append_nil] at hstart
      exact ⟨ha.starts, ha.ends, hstart⟩

/-- What follows the opening brace on its line is read as a line of the body. -/
theorem OpenedRows.scan_eq (h : OpenedRows front attributes rows)
    (hattributes : List.Forall₂ IsAttributeText attributes declarations) {c : Context}
    {b : EntityBlock} (hopen : ∀ u, c.step ⟨0, front ++ u⟩ = entityLine b ⟨0, strip u⟩)
    (rest : List Line) : c.scan (unnumbered rows ++ rest) =
      ⟨.entity (b.declareAll declarations) :: (Context.outside.scan rest).blocks,
        (Context.outside.scan rest).malformed?⟩ := by
  cases h with
  | own body =>
    rw [← body.scan_eq hattributes]
    apply scan_cons_of_step_to
    have hempty := hopen []
    rwa [List.append_nil] at hempty
  | @joined gap _ row rows blank body =>
    obtain ⟨hstarts, hends, hblock⟩ := body.head_parts hattributes
    have hstrip : strip (gap ++ row) = row := by
      rw [strip, dropBlanks_blankRun_append blank hstarts, dropLastBlanks_eq_self hends]
    have hsame : c.step ⟨0, front ++ (gap ++ row)⟩ = (Context.entityBody b).step ⟨0, row⟩ := by
      rw [hopen, hstrip]
      simp only [Context.step, hblock, Bool.false_eq_true, if_false]
    rw [← body.scan_eq hattributes]
    simp only [unnumbered, List.map_cons, List.cons_append, Context.scan, hsame]

/-- The block of a name and some attributes. -/
def EntityBlock.declaring (name : List Char) (declarations : List Declaration) : EntityBlock :=
  (EntityBlock.opened (nameOf name) 0).declareAll declarations

theorem step_heading (hheading : Heading entityKeyword name front) :
    Context.outside.step ⟨0, front⟩ = .to (.entityHeader (.opened (nameOf name) 0)) := by
  have hheader : header? entityKeyword (front ++ []) = some (name, []) :=
    hheading.header?_eq (by simp)
  have hbegins := hheading.beginsWith_eq []
  rw [List.append_nil] at hheader hbegins
  simp only [Context.step, blockStart, hbegins, entityStart, hheader, strip_nil, if_true]

theorem step_heading_brace (hheading : Heading entityKeyword name front) (hgap : IsBlankRun gap)
    (u : List Char) : Context.outside.step ⟨0, front ++ (gap ++ ['\x7b']) ++ u⟩ =
      entityLine (.opened (nameOf name) 0) ⟨0, strip u⟩ := by
  have hbrace : ∀ c ∈ ('\x7b' :: u).head?, isWordChar c = false :=
    forall_head?_cons (by decide)
  have hheader := hheading.header?_eq (head?_blankRun_append hgap hbrace)
  have hbegins := hheading.beginsWith_eq (gap ++ '\x7b' :: u)
  have hstrip : strip (gap ++ '\x7b' :: u) = '\x7b' :: dropLastBlanks u := by
    rw [strip, dropBlanks_blankRun_append hgap (startsNonblank_cons.mpr (by decide)),
      dropLastBlanks]
    cases dropLastBlanks u <;> rfl
  rw [List.append_assoc, List.append_assoc, List.singleton_append]
  simp only [Context.step, blockStart, hbegins, entityStart, hheader, hstrip, strip_dropLastBlanks,
    if_true]

/-- Every layout of an entity block is read as the block, and leaves nothing open. -/
theorem LayoutRows.scan_eq (h : LayoutRows name attributes rows)
    (hattributes : List.Forall₂ IsAttributeText attributes declarations) (rest : List Line) :
    Context.outside.scan (unnumbered rows ++ rest) =
      ⟨.entity (.declaring name declarations) :: (Context.outside.scan rest).blocks,
        (Context.outside.scan rest).malformed?⟩ := by
  cases h with
  | sameLine heading blank opened =>
    exact opened.scan_eq hattributes (step_heading_brace heading blank) rest
  | nextLine heading opened =>
    have hbrace : ∀ u, (Context.entityHeader (.opened (nameOf name) 0)).step ⟨0, ['\x7b'] ++ u⟩ =
        entityLine (.opened (nameOf name) 0) ⟨0, strip u⟩ := fun _ => rfl
    rw [EntityBlock.declaring, ← opened.scan_eq hattributes hbrace rest]
    exact scan_cons_of_step_to (step_heading heading) _

/-- Every layout begins with a line that begins with the heading. -/
theorem LayoutRows.exists_first (h : LayoutRows name attributes rows) :
    ∃ front u more, rows = (front ++ u) :: more ∧ Heading entityKeyword name front ∧
      ∀ c ∈ u.head?, isWordChar c = false := by
  have hbrace (gap u : List Char) (hgap : IsBlankRun gap) :
      ∀ c ∈ (gap ++ '\x7b' :: u).head?, isWordChar c = false := by
    apply head?_blankRun_append hgap
    exact forall_head?_cons (by decide)
  cases h with
  | @sameLine front gap _ _ heading blank opened =>
    cases opened with
    | own body => exact ⟨front, gap ++ ['\x7b'], _, rfl, heading, hbrace gap [] blank⟩
    | @joined gap' _ row rows blank' body =>
      exact ⟨front, gap ++ '\x7b' :: (gap' ++ row), rows, by simp, heading, hbrace gap _ blank⟩
  | @nextLine front _ rows heading opened =>
    exact ⟨front, [], rows, by simp, heading, by simp⟩

/-- Where a block may not begin, a heading is refused in the same way whatever follows it. -/
theorem exists_step_eq_error (name : List Char) {c : Context} (houtside : c ≠ .outside)
    (hend : ∀ b, c ≠ .generalizationEnd b) : ∃ step fault, step.next = .error fault ∧
      ∀ front u, Heading entityKeyword name front → (∀ c ∈ u.head?, isWordChar c = false) →
        c.step ⟨0, front ++ u⟩ = step := by
  have hstart (front u : List Char) (hfront : Heading entityKeyword name front)
      (hu : ∀ c ∈ u.head?, isWordChar c = false) : isBlockStart (front ++ u) = true := by
    rw [isBlockStart, hfront.header?_eq hu]
    rfl
  have hfirst (front u : List Char) (hfront : Heading entityKeyword name front) :
      ∃ rest, front ++ u = 'E' :: rest := by
    cases hfront
    exact ⟨_, rfl⟩
  cases c with
  | outside => contradiction
  | generalizationEnd b => exact absurd rfl (hend b)
  | entityHeader b =>
    refine ⟨⟨[.entity b], .error ⟨.openBraceExpected b.name, b.line, b.name.toList⟩⟩, _, rfl, ?_⟩
    intro front u hfront hu
    obtain ⟨rest, hrest⟩ := hfirst front u hfront
    rw [hrest]
    rfl
  | entityBody b =>
    refine ⟨⟨[.entity b], .error ⟨.unclosedEntity b.name, 0, entityKeyword⟩⟩, _, rfl, ?_⟩
    intro front u hfront hu
    simp only [Context.step, hstart front u hfront hu, if_true,
      hfront.firstRun_eq isName_entityKeyword]
  | generalizationHeader b =>
    refine ⟨⟨[.generalization b], .error ⟨.openBraceExpected b.generic, b.line,
      b.generic.toList⟩⟩, _, rfl, ?_⟩
    intro front u hfront hu
    obtain ⟨rest, hrest⟩ := hfirst front u hfront
    have hne : ¬ 'E' :: rest = ['\x7b'] := by simp
    rw [hrest, Context.step, if_neg hne]
  | generalizationBody b =>
    refine ⟨⟨[.generalization b], .error ⟨.unclosedGeneralization b.generic, 0,
      entityKeyword⟩⟩, _, rfl, ?_⟩
    intro front u hfront hu
    simp only [Context.step, hstart front u hfront hu, if_true,
      hfront.firstRun_eq isName_entityKeyword]

/-- Whatever is open, all layouts of an entity block are read alike, and where nothing is malformed
the block is among the blocks. -/
theorem exists_scan_layout (name : List Char)
    (hattributes : List.Forall₂ IsAttributeText attributes declarations)
    (rest : List Line) (c : Context) : ∃ result : Scan,
      (result.malformed? = none → .entity (.declaring name declarations) ∈ result.blocks) ∧
      ∀ rows, LayoutRows name attributes rows → c.scan (unnumbered rows ++ rest) = result := by
  by_cases houtside : c = .outside
  · subst houtside
    exact ⟨_, fun _ => List.mem_cons_self, fun rows h => h.scan_eq hattributes rest⟩
  by_cases hend : ∃ b, c = .generalizationEnd b
  · obtain ⟨b, rfl⟩ := hend
    refine ⟨⟨.generalization b :: .entity (.declaring name declarations) ::
      (Context.outside.scan rest).blocks, (Context.outside.scan rest).malformed?⟩, ?_, ?_⟩
    · exact fun _ => List.mem_cons_of_mem _ List.mem_cons_self
    · intro rows h
      have hbegins : ∀ line ∈ (unnumbered rows ++ rest).head?, BeginsBlock line.text := by
        obtain ⟨front, u, more, rfl, hfront, -⟩ := h.exists_first
        intro line hline
        cases hline
        rw [BeginsBlock, hfront.beginsWith_eq u, Bool.true_or]
      rw [Context.scan_generalizationEnd_of_beginsBlock hbegins, h.scan_eq hattributes]
  · obtain ⟨step, fault, hfault, hstep⟩ :=
      exists_step_eq_error name houtside (not_exists.mp hend)
    refine ⟨⟨step.blocks, some fault⟩, by simp, ?_⟩
    intro rows h
    obtain ⟨front, u, more, rfl, hfront, hu⟩ := h.exists_first
    have hfirst := hstep front u hfront hu
    simp only [unnumbered, List.map_cons, List.cons_append, Context.scan, hfirst, hfault]

theorem Scan.result_eq_ok {scan : Scan} {document : Document} (h : scan.result = .ok document) :
    scan.malformed? = none ∧ document.schema = Block.schema scan.blocks := by
  unfold Scan.result at h
  split at h
  · contradiction
  · contradiction
  · rename_i hmalformed
    refine ⟨hmalformed, ?_⟩
    unfold resolve at h
    split at h
    · contradiction
    · rw [← Except.ok.inj h]

/-- Errors that differ in the numbers of lines alone, as errors of sources do that are on a line. -/
theorem SourceError.alike_of_renumber {error other : SourceError} {m n : Nat}
    (hline : error.line? = some m) (hother : other.line? = some n)
    (h : error.renumber (fun _ => 0) = other.renumber (fun _ => 0)) :
    error.Alike (fun _ _ => True) other := by
  cases error with
  | malformed fault =>
    cases other with
    | malformed fault' =>
      obtain ⟨cause, line, near⟩ := fault
      obtain ⟨cause', line', near'⟩ := fault'
      cases h
      exact .malformed trivial
    | redeclared | invalid => cases h
  | redeclared name first line =>
    cases other with
    | redeclared name' first' line' =>
      cases h
      exact .redeclared trivial trivial
    | malformed | invalid => cases h
  | invalid violation line =>
    cases other with
    | invalid violation' line' =>
      obtain rfl : line = some m := hline
      obtain rfl : line' = some n := hother
      cases h
      exact .invalid trivial
    | malformed | redeclared => cases h

/-- The lines of a source that holds a block, without their numbers. -/
theorem unnumbered_trimmed_append {raws before block after : List (List Char)}
    (h : raws = before ++ block ++ after) : unnumbered (trimmed raws) =
      unnumbered (trimmed before) ++
        (unnumbered (trimmed block) ++ unnumbered (trimmed after)) := by
  simp [h, trimmed_append, unnumbered]

/-- The key attributes and the others, each in the order of the lines. -/
theorem EntityBlock.entity_declaring (name : List Char) (declarations : List Declaration) :
    (EntityBlock.declaring name declarations).entity =
      ⟨nameOf name, (declarations.filter (·.isKey)).map (·.content),
        (declarations.filter (!·.isKey)).map (·.content)⟩ := by
  simp [declaring, declareAll, opened, entity, attributesWhere, List.filter_map, Function.comp_def]

/-- An accepted source with a layout of an entity block has the entity. -/
theorem entity_mem_of_layout {s : String} {before block after : List (List Char)}
    {document : Document} (hs : lines s.toList = before ++ block ++ after)
    (hattributes : List.Forall₂ IsAttributeText attributes declarations)
    (hblock : LayoutRows name attributes (trimmed block)) (h : parse s = .ok document) :
    (⟨nameOf name, (declarations.filter (·.isKey)).map (·.content),
      (declarations.filter (!·.isKey)).map (·.content)⟩ : Entity) ∈ document.schema.entities := by
  have hresult := renumberResult_parse s
  rw [h, unnumbered_trimmed_append hs] at hresult
  obtain ⟨hmalformed, hschema⟩ := Scan.result_eq_ok hresult.symm
  obtain ⟨reached, hreached, hsubset⟩ := Context.exists_scan_of_append _ _ _ hmalformed
  obtain ⟨scan, hmem, hscan⟩ :=
    exists_scan_layout name hattributes (unnumbered (trimmed after)) reached
  rw [hscan _ hblock] at hreached hsubset
  have hentities : document.schema = Block.schema _ := hschema
  rw [hentities, ← EntityBlock.entity_declaring]
  exact List.mem_map_of_mem (Block.mem_filterMap_entity?_iff.mpr (hsubset (hmem hreached)))

/-- Sources that differ in the layout of an entity block alone are read alike, but for the numbers
of their lines. -/
theorem renumberResult_parse_layouts {s t : String} {before block other after : List (List Char)}
    (hs : lines s.toList = before ++ block ++ after)
    (ht : lines t.toList = before ++ other ++ after)
    (hattributes : List.Forall₂ IsAttributeText attributes declarations)
    (hblock : LayoutRows name attributes (trimmed block))
    (hother : LayoutRows name attributes (trimmed other)) :
    renumberResult (fun _ => 0) (·.renumber fun _ => 0) (parse s) =
      renumberResult (fun _ => 0) (·.renumber fun _ => 0) (parse t) := by
  rw [renumberResult_parse, renumberResult_parse, unnumbered_trimmed_append hs,
    unnumbered_trimmed_append ht]
  congr 1
  -- After the lines before it, whatever these leave open, the block is read in one way.
  apply Context.scan_append_congr
  intro c
  obtain ⟨result, -, hresult⟩ :=
    exists_scan_layout name hattributes (unnumbered (trimmed after)) c
  rw [hresult _ hblock, hresult _ hother]

/-- Two sources that differ in the layout of one entity block alone are both accepted, with the same
schema, or both refused, with an error of the same kind about the same text. The entity has its
attributes in the order of the lines, those of its key and the others. -/
theorem parse_layouts {s t : String} {before block other after : List (List Char)}
    (hs : lines s.toList = before ++ block ++ after)
    (ht : lines t.toList = before ++ other ++ after)
    (hattributes : List.Forall₂ IsAttributeText attributes declarations)
    (hblock : LayoutRows name attributes (trimmed block))
    (hother : LayoutRows name attributes (trimmed other)) :
    (∃ document changed, parse s = .ok document ∧ parse t = .ok changed ∧
      document.schema = changed.schema ∧
      (⟨nameOf name, (declarations.filter (·.isKey)).map (·.content),
        (declarations.filter (!·.isKey)).map (·.content)⟩ : Entity) ∈ document.schema.entities) ∨
    ∃ error changed, parse s = .error error ∧ parse t = .error changed ∧
      error.Alike (fun _ _ => True) changed ∧ error.near = changed.near := by
  have hsame := renumberResult_parse_layouts hs ht hattributes hblock hother
  cases hparse : parse s with
  | ok document =>
    cases hparse' : parse t with
    | error changed =>
      rw [hparse, hparse'] at hsame
      contradiction
    | ok changed =>
      rw [hparse, hparse'] at hsame
      have hschema : document.schema = changed.schema :=
        (Document.mk.inj (Except.ok.inj hsame)).1
      exact .inl ⟨document, changed, rfl, rfl, hschema,
        entity_mem_of_layout hs hattributes hblock hparse⟩
  | error error =>
    cases hparse' : parse t with
    | ok changed =>
      rw [hparse, hparse'] at hsame
      contradiction
    | error changed =>
      rw [hparse, hparse'] at hsame
      have hrenumber := Except.error.inj hsame
      obtain ⟨m, hm, -⟩ := standsOn_of_parse_eq_error hparse
      obtain ⟨n, hn, -⟩ := standsOn_of_parse_eq_error hparse'
      exact .inr ⟨error, changed, rfl, rfl, SourceError.alike_of_renumber hm hn hrenumber,
        SourceError.near_eq_of_renumber hrenumber⟩

/-- A key attribute, and a foreign key whose label looks like a brace: all of the block as close as
it goes, and each part on its own line, before a generalization that refers to the entity. -/
theorem parse_layouts_of_brace_in_label :
    let s := "\n".intercalate ["Entity B \x7b +b: n \x7d", "Entity A\x7b +id: n",
      " a: t FK -> B.b \"\x7d\" \x7d", "Generalization B \x7b A \x7d"]
    let t := "\n".intercalate ["Entity B \x7b +b: n \x7d", "Entity A", "\x7b", "+id: n",
      "a: t FK -> B.b \"\x7d\"", "\x7d", "Generalization B \x7b A \x7d"]
    ∃ document changed, parse s = .ok document ∧ parse t = .ok changed ∧
      document.schema = changed.schema ∧
      (⟨"A", [⟨"id", "n", false, false, none⟩], [⟨"a", "t", false, false, some ⟨"B", "b"⟩⟩]⟩ :
        Entity) ∈ document.schema.entities := by
  intro s t
  have hkey : IsAttributeText "+id: n".toList ⟨true, ⟨"id", "n", false, false, none⟩, none⟩ :=
    isAttributeText_of_readAttribute (startsNonblank_cons.mpr (by decide))
      (endsNonblank_append_singleton (t := "+id: ".toList).mpr (by decide)) (by decide +kernel)
  have hforeign : IsAttributeText "a: t FK -> B.b \"\x7d\"".toList
      ⟨false, ⟨"a", "t", false, false, some ⟨"B", "b"⟩⟩, some "\x7d"⟩ :=
    isAttributeText_of_readAttribute (startsNonblank_cons.mpr (by decide))
      (endsNonblank_append_singleton (t := "a: t FK -> B.b \"\x7d".toList).mpr (by decide))
      (by decide +kernel)
  have hheading : Heading entityKeyword ['A'] (entityKeyword ++ ([' '] ++ ['A'])) :=
    .heading (by simp) isBlankRun_space (by decide)
  have hblock : LayoutRows ['A'] ["+id: n".toList, "a: t FK -> B.b \"\x7d\"".toList]
      (trimmed ["Entity A\x7b +id: n".toList, " a: t FK -> B.b \"\x7d\" \x7d".toList]) := by
    have hrows : trimmed ["Entity A\x7b +id: n".toList, " a: t FK -> B.b \"\x7d\" \x7d".toList] =
        [entityKeyword ++ ([' '] ++ ['A']) ++ ([] ++ ['\x7b']) ++ ([' '] ++ "+id: n".toList),
          "a: t FK -> B.b \"\x7d\"".toList ++ ([' '] ++ ['\x7d'])] := by decide +kernel
    rw [hrows]
    exact .sameLine hheading isBlankRun_nil
      (.joined isBlankRun_space (.line (.last isBlankRun_space)))
  have hother : LayoutRows ['A'] ["+id: n".toList, "a: t FK -> B.b \"\x7d\"".toList]
      (trimmed ["Entity A".toList, "\x7b".toList, "+id: n".toList,
        "a: t FK -> B.b \"\x7d\"".toList, "\x7d".toList]) := by
    have hrows : trimmed ["Entity A".toList, "\x7b".toList, "+id: n".toList,
        "a: t FK -> B.b \"\x7d\"".toList, "\x7d".toList] =
        [entityKeyword ++ ([' '] ++ ['A']), ['\x7b'], "+id: n".toList,
          "a: t FK -> B.b \"\x7d\"".toList, ['\x7d']] := by decide +kernel
    rw [hrows]
    exact .nextLine hheading (.own (.line (.line .close)))
  have hs : lines s.toList = ["Entity B \x7b +b: n \x7d".toList] ++
      ["Entity A\x7b +id: n".toList, " a: t FK -> B.b \"\x7d\" \x7d".toList] ++
      ["Generalization B \x7b A \x7d".toList] := by decide +kernel
  have ht : lines t.toList = ["Entity B \x7b +b: n \x7d".toList] ++
      ["Entity A".toList, "\x7b".toList, "+id: n".toList, "a: t FK -> B.b \"\x7d\"".toList,
        "\x7d".toList] ++ ["Generalization B \x7b A \x7d".toList] := by decide +kernel
  obtain hread | ⟨error, -, herror, -⟩ :=
    parse_layouts hs ht (.cons hkey (.cons hforeign .nil)) hblock hother
  · exact hread
  · have haccepted : (parse s).isOk = true := by decide +kernel
    rw [herror] at haccepted
    contradiction

end Layouts

end EntityDiagram.Source
