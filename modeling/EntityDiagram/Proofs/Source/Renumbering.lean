import EntityDiagram.Proofs.Source.Blocks

/-! Reading lines that bear other numbers. Numbers of lines are carried along and never compared, so
renumbering the lines of a source renumbers the parts of its blocks and its faults, and changes
nothing else. -/
namespace EntityDiagram.Source

variable (f : Nat → Nat)

def Line.renumber (line : Line) : Line := { line with number := f line.number }

def Located.renumber {α : Type} (located : Located α) : Located α :=
  { located with line := f located.line }

def EntityBlock.renumber (b : EntityBlock) : EntityBlock :=
  { b with line := f b.line, declarations := b.declarations.map (·.renumber f) }

def GeneralizationBlock.renumber (b : GeneralizationBlock) : GeneralizationBlock :=
  { b with line := f b.line, categories := b.categories.map (·.renumber f) }

def Block.renumber : Block → Block
  | entity b => entity (b.renumber f)
  | generalization b => generalization (b.renumber f)

def Context.renumber : Context → Context
  | outside => outside
  | entityHeader b => entityHeader (b.renumber f)
  | entityBody b => entityBody (b.renumber f)
  | generalizationHeader b => generalizationHeader (b.renumber f)
  | generalizationBody b => generalizationBody (b.renumber f)
  | generalizationEnd b => generalizationEnd (b.renumber f)

def Malformed.renumber (fault : Malformed) : Malformed := { fault with line := f fault.line }

/-- Renumbers what was read, or the fault. -/
def renumberRead {α : Type} (read : α → α) : Except Malformed α → Except Malformed α
  | .ok a => .ok (read a)
  | .error fault => .error (fault.renumber f)

def Step.renumber (s : Step) : Step :=
  ⟨s.blocks.map (·.renumber f), renumberRead f (·.renumber f) s.next⟩

def Scan.renumber (s : Scan) : Scan :=
  ⟨s.blocks.map (·.renumber f), s.malformed?.map (·.renumber f)⟩

@[simp] theorem Line.text_renumber (line : Line) : (line.renumber f).text = line.text := rfl

theorem Context.blocks_renumber (c : Context) :
    (c.renumber f).blocks = c.blocks.map (·.renumber f) := by
  cases c <;> rfl

theorem Context.unfinished?_renumber (c : Context) :
    (c.renumber f).unfinished? = c.unfinished?.map (·.renumber f) := by
  cases c <;> rfl

theorem EntityBlock.declare_renumber (b : EntityBlock) (d : Located Declaration) :
    (b.renumber f).declare (d.renumber f) = (b.declare d).renumber f := by
  simp [renumber, declare]

theorem GeneralizationBlock.addCategory_renumber (b : GeneralizationBlock)
    (category : Located String) :
    (b.renumber f).addCategory (category.renumber f) = (b.addCategory category).renumber f := by
  simp [renumber, addCategory]

theorem readAttribute_renumber (line : Line) :
    readAttribute (line.renumber f) = renumberRead f (·.renumber f) (readAttribute line) := by
  simp only [readAttribute, Line.renumber]
  split
  · rfl
  · split
    · rfl
    · split_ifs <;> rfl

theorem entityLine_renumber (block : EntityBlock) (line : Line) :
    entityLine (block.renumber f) (line.renumber f) = (entityLine block line).renumber f := by
  have hfinish : ∀ (closes : Bool) (b : EntityBlock),
      (if closes then (⟨[.entity (b.renumber f)], .ok .outside⟩ : Step)
        else .to (.entityBody (b.renumber f))) =
      (if closes then (⟨[.entity b], .ok .outside⟩ : Step)
        else .to (.entityBody b)).renumber f := by
    intro closes b
    cases closes <;> rfl
  rw [entityLine, entityLine, Line.text_renumber]
  obtain ⟨text, closes⟩ := splitClose line.text
  have hread : readAttribute ⟨f line.number, text⟩ =
      renumberRead f (·.renumber f) (readAttribute ⟨line.number, text⟩) :=
    readAttribute_renumber f ⟨line.number, text⟩
  dsimp only [Line.renumber]
  rw [hread]
  split
  · exact hfinish closes block
  · cases readAttribute ⟨line.number, text⟩ with
    | error fault => rfl
    | ok d =>
      simp only [renumberRead, EntityBlock.declare_renumber]
      exact hfinish closes (block.declare d)

theorem entityStart_renumber (line : Line) :
    entityStart (line.renumber f) = (entityStart line).renumber f := by
  simp only [entityStart, Line.renumber]
  cases header? entityKeyword line.text with
  | none => rfl
  | some header =>
    obtain ⟨name, rest⟩ := header
    simp only
    split
    · rfl
    · rename_i body _
      exact entityLine_renumber f (EntityBlock.opened (nameOf name) line.number)
        ⟨line.number, Text.strip body⟩
    · rfl

theorem readModifiers_renumber (block : GeneralizationBlock) (number : Nat)
    (tokens : List Token) : readModifiers (block.renumber f) (f number) tokens =
      renumberRead f (·.renumber f) (readModifiers block number tokens) := by
  induction block, tokens using readModifiers.induct with
  | case1 block => rfl
  | case2 block word rest complete hword hgiven =>
    have hmoved : (block.renumber f).completeness.isSome := hgiven
    rw [readModifiers.eq_def, readModifiers.eq_def block]
    simp only [hword, if_pos hgiven, if_pos hmoved]
    rfl
  | case3 block word rest complete hword hgiven ih =>
    have hmoved : ¬ (block.renumber f).completeness.isSome := hgiven
    rw [readModifiers.eq_def, readModifiers.eq_def block]
    simp only [hword, if_neg hgiven, if_neg hmoved]
    exact ih
  | case4 block word rest hword hdiscriminator hgiven =>
    have hmoved : (block.renumber f).discriminator.isSome := hgiven
    rw [readModifiers.eq_def, readModifiers.eq_def block]
    simp only [hword, if_pos hdiscriminator, if_pos hgiven, if_pos hmoved]
    rfl
  | case5 block word hword hdiscriminator hgiven name others hname ih =>
    have hmoved : ¬ (block.renumber f).discriminator.isSome := hgiven
    rw [readModifiers, readModifiers]
    simp only [hword, if_pos hdiscriminator, if_neg hgiven, if_neg hmoved, if_pos hname]
    exact ih
  | case6 block word hword hdiscriminator hgiven name others hname =>
    have hmoved : ¬ (block.renumber f).discriminator.isSome := hgiven
    rw [readModifiers, readModifiers]
    simp only [hword, if_pos hdiscriminator, if_neg hgiven, if_neg hmoved, if_neg hname]
    rfl
  | case7 block word rest hword hdiscriminator hgiven hform =>
    have hmoved : ¬ (block.renumber f).discriminator.isSome := hgiven
    rw [readModifiers.eq_3 _ _ _ _ hform, readModifiers.eq_3 _ _ _ _ hform]
    simp only [hword, if_pos hdiscriminator, if_neg hgiven, if_neg hmoved]
    rfl
  | case8 block word rest hword hdiscriminator =>
    rw [readModifiers.eq_def, readModifiers.eq_def block]
    simp only [hword, if_neg hdiscriminator]
    rfl
  | case9 block token rest hrun =>
    rw [readModifiers.eq_4 _ _ _ _ hrun, readModifiers.eq_4 _ _ _ _ hrun]
    rfl

theorem readCategories_renumber (block : GeneralizationBlock) (number : Nat)
    (tokens : List Token) : readCategories (block.renumber f) (f number) tokens =
      renumberRead f (·.renumber f) (readCategories block number tokens) := by
  induction block, tokens using readCategories.induct number with
  | case1 block => rfl
  | case2 block rest =>
    rw [readCategories, readCategories, readModifiers_renumber]
    cases readModifiers block number rest <;> rfl
  | case3 block rest ih => rwa [readCategories, readCategories]
  | case4 block name rest hname ih =>
    rw [readCategories, readCategories, if_pos hname, if_pos hname, ← ih,
      ← GeneralizationBlock.addCategory_renumber]
    rfl
  | case5 block name rest hname =>
    rw [readCategories, readCategories, if_neg hname, if_neg hname]
    rfl
  | case6 block token rest hclose hcomma hrun =>
    rw [readCategories.eq_5 _ _ _ _ hclose hcomma hrun,
      readCategories.eq_5 _ _ _ _ hclose hcomma hrun]
    rfl

theorem generalizationStart_renumber (line : Line) :
    generalizationStart (line.renumber f) = (generalizationStart line).renumber f := by
  simp only [generalizationStart, Line.renumber]
  cases header? generalizationKeyword line.text with
  | none => rfl
  | some header =>
    obtain ⟨generic, rest⟩ := header
    simp only
    split
    · rfl
    · rename_i tokens _
      have hread := readCategories_renumber f
        (GeneralizationBlock.opened (nameOf generic) line.number) line.number tokens
      rw [Step.renumber, ← hread]
      rfl
    · rfl

theorem blockStart_renumber (line : Line) :
    blockStart (line.renumber f) = (blockStart line).renumber f := by
  rw [blockStart, entityStart_renumber, generalizationStart_renumber]
  change (if beginsWith entityKeyword line.text then (entityStart line).renumber f
    else if beginsWith generalizationKeyword line.text then (generalizationStart line).renumber f
    else Step.renumber f ⟨[], .error ⟨.outsideBlock, line.number, Text.firstRun line.text⟩⟩) = _
  rw [blockStart, apply_ite (Step.renumber f), apply_ite (Step.renumber f)]

/-- A line with another number has the same effect, with other numbers. -/
theorem Context.step_renumber (c : Context) (line : Line) :
    (c.renumber f).step (line.renumber f) = (c.step line).renumber f := by
  cases c with
  | outside => exact blockStart_renumber f line
  | entityHeader block =>
    simp only [renumber, step, Line.renumber]
    split
    · rename_i body _
      exact entityLine_renumber f block ⟨line.number, Text.strip body⟩
    · rfl
  | entityBody block =>
    change (if isBlockStart line.text then _
      else entityLine (block.renumber f) (line.renumber f)) = _
    rw [entityLine_renumber, step, apply_ite (Step.renumber f)]
    rfl
  | generalizationHeader block =>
    change (if line.text = ['\x7b'] then _ else _) = _
    rw [step, apply_ite (Step.renumber f)]
    rfl
  | generalizationBody block =>
    change (if isBlockStart line.text then _ else
      (⟨[], readCategories (block.renumber f) (f line.number) (Token.ofText line.text)⟩ : Step)) = _
    rw [readCategories_renumber, step, apply_ite (Step.renumber f)]
    rfl
  | generalizationEnd block =>
    have hread := readModifiers_renumber f block line.number (Token.ofText line.text)
    simp only [renumber, step, blockStart_renumber]
    simp only [Line.renumber, hread]
    split_ifs
    · rfl
    · cases readModifiers block line.number (Token.ofText line.text) <;> rfl
    · rfl

/-- Reading renumbered lines renumbers what is read. -/
theorem Context.scan_renumber (c : Context) (lines : List Line) :
    (c.renumber f).scan (lines.map (·.renumber f)) = (c.scan lines).renumber f := by
  induction lines generalizing c with
  | nil => rw [List.map_nil, scan, scan, blocks_renumber, unfinished?_renumber]; rfl
  | cons line rest ih =>
    rw [List.map_cons, scan, scan, step_renumber]
    obtain ⟨blocks, next⟩ := c.step line
    cases next with
    | error fault => rfl
    | ok next =>
      simp only [Step.renumber, renumberRead, ih]
      simp [Scan.renumber]

theorem distinct_renumber (earlier : List String) (names : List (Located String)) :
    distinct earlier (names.map (·.renumber f)) = distinct earlier names := by
  induction names generalizing earlier with
  | nil => rfl
  | cons name rest ih =>
    simp only [List.map_cons, distinct, ih]
    rfl

@[simp] theorem EntityBlock.entity_renumber (b : EntityBlock) :
    (b.renumber f).entity = b.entity := by
  simp [entity, attributesWhere, renumber, Located.renumber, List.filter_map, Function.comp_def]

@[simp] theorem GeneralizationBlock.generalization_renumber (b : GeneralizationBlock) :
    (b.renumber f).generalization = b.generalization := by
  simp only [generalization, renumber, distinct_renumber]

theorem Block.filterMap_entity?_renumber (blocks : List Block) :
    (blocks.map (·.renumber f)).filterMap entity? =
      (blocks.filterMap entity?).map (·.renumber f) := by
  rw [List.filterMap_map, List.map_filterMap]
  apply List.filterMap_congr
  intro b _
  cases b <;> rfl

theorem Block.filterMap_generalization?_renumber (blocks : List Block) :
    (blocks.map (·.renumber f)).filterMap generalization? =
      (blocks.filterMap generalization?).map (·.renumber f) := by
  rw [List.filterMap_map, List.map_filterMap]
  apply List.filterMap_congr
  intro b _
  cases b <;> rfl

/-- Renumbered blocks declare the same. -/
@[simp] theorem Block.schema_renumber (blocks : List Block) :
    schema (blocks.map (·.renumber f)) = schema blocks := by
  have hrelationships : (schema (blocks.map (·.renumber f))).relationships =
      (schema blocks).relationships := by
    rw [schema_relationships, schema_relationships, filterMap_entity?_renumber, List.flatMap_map]
    apply List.flatMap_congr
    intro b _
    rw [EntityBlock.renumber, List.filterMap_map]
    rfl
  have hentities : (schema (blocks.map (·.renumber f))).entities = (schema blocks).entities := by
    simp only [schema, filterMap_entity?_renumber, List.map_map]
    exact List.map_congr_left fun b _ => b.entity_renumber f
  have hgeneralizations : (schema (blocks.map (·.renumber f))).generalizations =
      (schema blocks).generalizations := by
    simp only [schema, filterMap_generalization?_renumber, List.map_map]
    exact List.map_congr_left fun b _ => b.generalization_renumber f
  rw [Schema.mk.injEq]
  exact ⟨hentities, hrelationships, hgeneralizations⟩

end EntityDiagram.Source
