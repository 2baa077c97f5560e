import EntityDiagram.Proofs.Source.Renumbering
import EntityDiagram.Source.Report

/-! Following references and reporting categories under other line numbers. Sources whose lines
differ in their numbers alone are read to the same result, or fail with the same error, under the
numbers of the other lines. -/
namespace EntityDiagram.Source

variable (f : Nat → Nat)

def DuplicateCategory.renumber (d : DuplicateCategory) : DuplicateCategory :=
  { d with line := f d.line }

def Document.renumber (d : Document) : Document :=
  { d with duplicates := d.duplicates.map (·.renumber f) }

def SourceError.renumber : SourceError → SourceError
  | malformed fault => malformed (fault.renumber f)
  | redeclared name first line => redeclared name (f first) (f line)
  | invalid violation line => invalid violation (line.map f)

/-- Renumbers what a source is read to, or the error. -/
def renumberResult {α : Type} (read : α → α) : Except SourceError α → Except SourceError α
  | .ok a => .ok (read a)
  | .error error => .error (error.renumber f)

theorem repeatedDeclaration?_renumber (earlier : List String)
    (declarations : List (Located Declaration)) :
    repeatedDeclaration? earlier (declarations.map (·.renumber f)) =
      (repeatedDeclaration? earlier declarations).map (·.renumber f) := by
  induction declarations generalizing earlier with
  | nil => rfl
  | cons d rest ih =>
    rw [List.map_cons, repeatedDeclaration?, repeatedDeclaration?, ih,
      apply_ite (Option.map (Located.renumber f))]
    rfl

theorem repeatError?_renumber (earlier blocks : List EntityBlock) :
    repeatError? (earlier.map (·.renumber f)) (blocks.map (·.renumber f)) =
      (repeatError? earlier blocks).map (·.renumber f) := by
  induction blocks generalizing earlier with
  | nil => rfl
  | cons b rest ih =>
    have hfind : (earlier.map (·.renumber f)).find? (·.name = (b.renumber f).name) =
        (earlier.find? (·.name = b.name)).map (·.renumber f) := by
      rw [List.find?_map]
      rfl
    have hrepeated : repeatedDeclaration? [] (b.renumber f).declarations =
        (repeatedDeclaration? [] b.declarations).map (·.renumber f) :=
      repeatedDeclaration?_renumber f [] b.declarations
    have hrest := ih (b :: earlier)
    rw [List.map_cons, repeatError?, repeatError?, hfind, hrepeated]
    cases earlier.find? (·.name = b.name) with
    | some first => rfl
    | none =>
      cases repeatedDeclaration? [] b.declarations with
      | some d => rfl
      | none => exact hrest

theorem EntityBlock.relationships_renumber (b : EntityBlock) :
    (b.renumber f).relationships = b.relationships.map (·.renumber f) := by
  simp only [relationships, renumber, List.filterMap_map, List.map_filterMap]
  apply List.filterMap_congr
  intro d _
  simp only [Function.comp_apply, Located.renumber]
  cases relationship? b.name d.value <;> rfl

theorem Block.relationships_renumber (blocks : List Block) :
    relationships (blocks.map (·.renumber f)) = (relationships blocks).map (·.renumber f) := by
  rw [relationships, relationships, filterMap_entity?_renumber, List.flatMap_map, List.map_flatMap]
  apply List.flatMap_congr
  intro b _
  exact b.relationships_renumber f

theorem repeats_renumber (earlier : List String) (names : List (Located String)) :
    repeats earlier (names.map (·.renumber f)) = (repeats earlier names).map (·.renumber f) := by
  induction names generalizing earlier with
  | nil => rfl
  | cons name rest ih =>
    rw [List.map_cons, repeats, repeats, ih, ih, apply_ite (List.map (Located.renumber f))]
    rfl

theorem Block.duplicateCategories_renumber (blocks : List Block) :
    duplicateCategories (blocks.map (·.renumber f)) =
      (duplicateCategories blocks).map (·.renumber f) := by
  rw [duplicateCategories, duplicateCategories, filterMap_generalization?_renumber,
    List.flatMap_map, List.map_flatMap]
  apply List.flatMap_congr
  intro b _
  simp only [GeneralizationBlock.duplicates, GeneralizationBlock.renumber, repeats_renumber,
    List.map_map]
  rfl

/-- Whatever is found first in a renumbered list is what is found first, renumbered. -/
theorem findSome?_map_renumber {β : Type} (move : β → β) (check : β → Option SourceError)
    (h : ∀ b, check (move b) = (check b).map (·.renumber f)) (l : List β) :
    (l.map move).findSome? check = (l.findSome? check).map (·.renumber f) := by
  rw [List.findSome?_map, List.map_findSome?]
  congr 1
  funext b
  exact h b

theorem cycleError?_renumber (schema : Schema) (blocks : List GeneralizationBlock) :
    cycleError? schema (blocks.map (·.renumber f)) =
      (cycleError? schema blocks).map (·.renumber f) := by
  unfold cycleError?
  rw [Option.map_map]
  congr 1
  funext names
  simp only [Function.comp_apply, SourceError.renumber, List.find?_map, Option.map_map]
  rfl

theorem referenceError?_renumber (blocks : List Block) :
    referenceError? (blocks.map (·.renumber f)) =
      (referenceError? blocks).map (·.renumber f) := by
  have htarget := findSome?_map_renumber f (Located.renumber f) (targetError? (Block.schema blocks))
    (fun r => by rw [targetError?, targetError?, Option.map_map]; rfl) (Block.relationships blocks)
  have hgeneralization := findSome?_map_renumber f (GeneralizationBlock.renumber f)
    (generalizationError? (Block.schema blocks))
    (fun b => by
      rw [generalizationError?, generalizationError?, GeneralizationBlock.generalization_renumber,
        Option.map_map]
      rfl)
    (blocks.filterMap Block.generalization?)
  rw [referenceError?, referenceError?, Block.schema_renumber, Block.relationships_renumber,
    Block.filterMap_generalization?_renumber, htarget, hgeneralization, cycleError?_renumber,
    Option.map_or, Option.map_or]

theorem resolve_renumber (blocks : List Block) : resolve (blocks.map (·.renumber f)) =
    renumberResult f (·.renumber f) (resolve blocks) := by
  rw [resolve, resolve, referenceError?_renumber]
  cases referenceError? blocks with
  | some error => rfl
  | none =>
    simp only [Option.map_none, Block.schema_renumber, Block.duplicateCategories_renumber]
    rfl

theorem readBlocks_renumber {s t : List Char}
    (hlines : significantLines t = (significantLines s).map (·.renumber f)) :
    readBlocks t = renumberResult f (·.map (·.renumber f)) (readBlocks s) := by
  have hscan := Context.scan_renumber f .outside (significantLines s)
  change Context.outside.scan _ = _ at hscan
  have hrepeat := repeatError?_renumber f []
    (((Context.outside.scan (significantLines s)).blocks).filterMap Block.entity?)
  rw [List.map_nil, ← Block.filterMap_entity?_renumber] at hrepeat
  simp only [readBlocks, hlines, hscan, Scan.renumber, hrepeat]
  cases repeatError? []
    (((Context.outside.scan (significantLines s)).blocks).filterMap Block.entity?) with
  | some error => rfl
  | none => cases (Context.outside.scan (significantLines s)).malformed? <;> rfl

/-- Sources with the same lines under other numbers are read alike. -/
theorem parse_renumber {s t : String}
    (hlines : significantLines t.toList = (significantLines s.toList).map (·.renumber f)) :
    parse t = renumberResult f (·.renumber f) (parse s) := by
  rw [parse, parse, readBlocks_renumber f hlines]
  cases readBlocks s.toList with
  | error error => rfl
  | ok blocks => exact resolve_renumber f blocks

theorem GeneralizationBlock.takeCategories_renumber (b : GeneralizationBlock) (number : Nat)
    (tokens : List Token) : (b.renumber f).takeCategories (f number) tokens =
      (b.takeCategories number tokens).renumber f := by
  induction b, tokens using takeCategories.induct number with
  | case1 b rest ih => rwa [takeCategories, takeCategories]
  | case2 b name rest hname ih =>
    rw [takeCategories, takeCategories, if_pos hname, if_pos hname, ← ih, ← addCategory_renumber]
    rfl
  | case3 b name rest hname => rw [takeCategories, takeCategories, if_neg hname, if_neg hname]
  | case4 b tokens hcomma hrun =>
    rw [takeCategories.eq_3 _ _ _ hcomma hrun, takeCategories.eq_3 _ _ _ hcomma hrun]

theorem generalizationFrom_renumber (line : Line) :
    generalizationFrom (line.renumber f) = (generalizationFrom line).map (·.renumber f) := by
  simp only [generalizationFrom, Line.renumber]
  cases header? generalizationKeyword line.text with
  | none => rfl
  | some header =>
    obtain ⟨generic, rest⟩ := header
    simp only
    split
    · rename_i tokens _
      have htaken := GeneralizationBlock.takeCategories_renumber f
        (GeneralizationBlock.opened (nameOf generic) line.number) line.number tokens
      rw [List.map_singleton, Block.renumber, ← htaken]
      rfl
    · rfl

theorem Context.cutOff_renumber (c : Context) (line : Line) :
    (c.renumber f).cutOff (line.renumber f) = (c.cutOff line).map (·.renumber f) := by
  cases c with
  | outside => exact generalizationFrom_renumber f line
  | generalizationBody block =>
    have htaken := block.takeCategories_renumber f line.number (Token.ofText line.text)
    simp only [cutOff, renumber, Line.renumber, htaken]
    rw [apply_ite (List.map (Block.renumber f))]
    rfl
  | generalizationEnd block =>
    simp only [cutOff, renumber, generalizationFrom_renumber, Line.text_renumber]
    rw [apply_ite (List.map (Block.renumber f)), apply_ite (List.map (Block.renumber f))]
    rfl
  | entityHeader | entityBody | generalizationHeader => rfl

theorem Context.blocksRead_renumber (c : Context) (lines : List Line) :
    (c.renumber f).blocksRead (lines.map (·.renumber f)) =
      (c.blocksRead lines).map (·.renumber f) := by
  induction lines generalizing c with
  | nil => exact c.blocks_renumber f
  | cons line rest ih =>
    rw [List.map_cons, blocksRead, blocksRead, step_renumber, cutOff_renumber]
    obtain ⟨blocks, next⟩ := c.step line
    cases next with
    | error fault => exact List.map_append.symm
    | ok next =>
      simp only [Step.renumber, renumberRead, ih]
      exact List.map_append.symm

theorem beforeRepeat_renumber (earlier : List EntityBlock) (blocks : List Block) :
    beforeRepeat (earlier.map (·.renumber f)) (blocks.map (·.renumber f)) =
      (beforeRepeat earlier blocks).map (·.renumber f) := by
  induction blocks generalizing earlier with
  | nil => rfl
  | cons block rest ih =>
    cases block with
    | generalization b =>
      rw [List.map_cons, Block.renumber, beforeRepeat, beforeRepeat, ih]
      rfl
    | entity b =>
      have hrepeat := repeatError?_renumber f earlier [b]
      have hrest := ih (b :: earlier)
      rw [List.map_singleton] at hrepeat
      rw [List.map_cons] at hrest
      rw [List.map_cons, Block.renumber, beforeRepeat, beforeRepeat, hrepeat, hrest]
      cases repeatError? earlier [b] <;> rfl

/-- Sources with the same lines under other numbers report the same categories. -/
theorem reported_renumber {s t : String}
    (hlines : significantLines t.toList = (significantLines s.toList).map (·.renumber f)) :
    reported t = (reported s).map (·.renumber f) := by
  have hread := Context.blocksRead_renumber f .outside (significantLines s.toList)
  have hbefore := beforeRepeat_renumber f []
    (Context.outside.blocksRead (significantLines s.toList))
  change Context.outside.blocksRead _ = _ at hread
  rw [reported, reported, hlines, hread, ← Block.duplicateCategories_renumber, ← hbefore]
  rfl

end EntityDiagram.Source
