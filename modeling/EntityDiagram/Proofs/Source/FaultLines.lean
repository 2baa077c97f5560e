import EntityDiagram.Proofs.Schema.Cycles
import EntityDiagram.Proofs.Source.Printable

/-! Where a source is at fault. Whatever is read of a source stands on one of its significant lines:
the line at hand, or a line that an open block remembers. So every error names a significant line,
and the text that it shows there is not empty. -/
namespace EntityDiagram.Source

open Text

variable {α β : Type} {P : Nat → Prop}

/-- A fault on a line of a property; the text that shows it is there. -/
structure Malformed.StandsOn (P : Nat → Prop) (fault : Malformed) : Prop where
  line : P fault.line
  near : fault.near ≠ []

/-- Reading that ends with a result of a property, or with a fault on a line. -/
inductive Reads (P : Nat → Prop) (Q : α → Prop) : Except Malformed α → Prop
  | ok {a : α} (h : Q a) : Reads P Q (.ok a)
  | error {fault : Malformed} (h : fault.StandsOn P) : Reads P Q (.error fault)

theorem Reads.map {Q : α → Prop} {R : β → Prop} {x : Except Malformed α} {f : α → β}
    (h : Reads P Q x) (hf : ∀ a, Q a → R (f a)) : Reads P R (x.map f) := by
  cases h with
  | ok ha => exact .ok (hf _ ha)
  | error hfault => exact .error hfault

/-- A significant line on a line of a property. -/
structure Line.StandsOn (P : Nat → Prop) (line : Line) : Prop where
  number : P line.number
  text : line.text ≠ []
  starts : StartsNonblank line.text

theorem Line.StandsOn.fault {line : Line} (h : line.StandsOn P) (cause : Malformation) :
    Malformed.StandsOn P ⟨cause, line.number, line.text⟩ :=
  ⟨h.number, h.text⟩

theorem Line.StandsOn.firstRun {line : Line} (h : line.StandsOn P) (cause : Malformation) :
    Malformed.StandsOn P ⟨cause, line.number, Text.firstRun line.text⟩ :=
  ⟨h.number, firstRun_ne_nil h.text h.starts⟩

structure EntityBlock.StandsOn (P : Nat → Prop) (b : EntityBlock) : Prop where
  line : P b.line
  name : b.name.toList ≠ []
  declarations : ∀ d ∈ b.declarations, P d.line

structure GeneralizationBlock.StandsOn (P : Nat → Prop) (b : GeneralizationBlock) : Prop where
  line : P b.line
  generic : b.generic.toList ≠ []

def Block.StandsOn (P : Nat → Prop) : Block → Prop
  | entity b => b.StandsOn P
  | generalization b => b.StandsOn P

@[simp] theorem Block.standsOn_entity {b : EntityBlock} :
    (entity b).StandsOn P ↔ b.StandsOn P := Iff.rfl

@[simp] theorem Block.standsOn_generalization {b : GeneralizationBlock} :
    (generalization b).StandsOn P ↔ b.StandsOn P := Iff.rfl

/-- What is open stands on lines of a property. -/
def Context.StandsOn (P : Nat → Prop) (c : Context) : Prop := ∀ b ∈ c.blocks, b.StandsOn P

theorem Context.standsOn_outside : Context.outside.StandsOn P := by
  intro b hb
  contradiction

theorem Context.standsOn_of_blocks_eq {c : Context} {b : Block} (hc : c.blocks = [b])
    (hb : b.StandsOn P) : c.StandsOn P := by
  intro other hother
  rw [hc] at hother
  rwa [List.mem_singleton.mp hother]

/-- What a line closes, leaves open or shows to be at fault stands on lines of a property. -/
structure Step.StandsOn (P : Nat → Prop) (s : Step) : Prop where
  blocks : ∀ b ∈ s.blocks, b.StandsOn P
  next : Reads P (Context.StandsOn P) s.next

theorem Step.standsOn_to {c : Context} (h : c.StandsOn P) : (Step.to c).StandsOn P :=
  ⟨by simp [Step.to], .ok h⟩

theorem Step.standsOn_error {fault : Malformed} {b : Block} (h : fault.StandsOn P)
    (hb : b.StandsOn P) : Step.StandsOn P ⟨[b], .error fault⟩ :=
  ⟨by simpa using hb, .error h⟩

theorem EntityBlock.StandsOn.declare {b : EntityBlock} (h : b.StandsOn P)
    {d : Located Declaration} (hd : P d.line) : (b.declare d).StandsOn P := by
  refine ⟨h.line, h.name, ?_⟩
  intro e he
  rcases List.mem_append.mp he with he | he
  · exact h.declarations e he
  · rwa [List.mem_singleton.mp he]

variable {line : Line}

section

variable {block : EntityBlock}

/-- Each of the four faults of an attribute line shows some text of it. -/
theorem reads_readAttribute (hnumber : P line.number) (htext : line.text ≠ []) :
    Reads P (fun d => P d.line) (readAttribute line) := by
  unfold readAttribute
  split
  · exact .error ⟨hnumber, htext⟩
  · rename_i a ha
    split
    · rename_i marker hmarker
      refine .error ⟨hnumber, ?_⟩
      intro (hnil : a.markers = [])
      rw [hnil] at hmarker
      contradiction
    · split_ifs with hkey hbrace
      · refine .error ⟨hnumber, ?_⟩
        intro (hnil : a.type = [])
        rw [hnil] at hkey
        contradiction
      · refine .error ⟨hnumber, ?_⟩
        intro (hnil : a.type = [])
        rw [hnil] at hbrace
        contradiction
      · exact .ok hnumber

theorem standsOn_entityLine (hb : block.StandsOn P) (hnumber : P line.number) :
    (entityLine block line).StandsOn P := by
  have hfinish : ∀ (closes : Bool) (b : EntityBlock), b.StandsOn P →
      Step.StandsOn P (if closes then ⟨[.entity b], .ok .outside⟩ else .to (.entityBody b)) := by
    intro closes b hb
    cases closes with
    | true => exact ⟨by simpa using hb, .ok Context.standsOn_outside⟩
    | false => exact Step.standsOn_to (Context.standsOn_of_blocks_eq rfl hb)
  unfold entityLine
  obtain ⟨text, closes⟩ := splitClose line.text
  simp only
  split
  · exact hfinish closes block hb
  · rename_i htext
    have hread : Reads P (fun d => P d.line) (readAttribute ⟨line.number, text⟩) :=
      reads_readAttribute hnumber (by simpa using htext)
    split
    · rename_i fault hfault
      rw [hfault] at hread
      cases hread with
      | error hstands => exact Step.standsOn_error hstands hb
    · rename_i d hd
      rw [hd] at hread
      cases hread with
      | ok hline => exact hfinish closes _ (hb.declare hline)

theorem standsOn_entityStart (hline : line.StandsOn P) : (entityStart line).StandsOn P := by
  unfold entityStart
  split
  · exact ⟨by simp, .error (hline.fault _)⟩
  · rename_i name rest hheader
    have hopened : (EntityBlock.opened (nameOf name) line.number).StandsOn P :=
      ⟨hline.number, by simpa [EntityBlock.opened, nameOf] using
        (isName_iff.mp (isName_of_header? hheader)).1, by simp [EntityBlock.opened]⟩
    simp only
    split
    · exact Step.standsOn_to (Context.standsOn_of_blocks_eq rfl hopened)
    · exact standsOn_entityLine hopened hline.number
    · rename_i hrest _
      exact Step.standsOn_error
        ⟨hline.number, firstRun_ne_nil hrest (startsNonblank_strip rest)⟩ hopened

end

section

variable {block : GeneralizationBlock}

theorem Token.text_of_mark?_eq_some {c : Char} {token : Token} (h : mark? c = some token) :
    token.text = [c] := by
  unfold mark? at h
  split at h <;> cases h <;> rfl

/-- No token is empty. -/
theorem Token.text_ne_nil_of_mem_ofText (text : List Char) :
    ∀ token ∈ ofText text, token.text ≠ [] := by
  intro token h
  induction text with
  | nil => contradiction
  | cons c rest ih =>
    rw [ofText] at h
    split_ifs at h
    · exact ih h
    · split at h
      · rename_i mark hmark
        rcases List.mem_cons.mp h with rfl | h
        · simp [text_of_mark?_eq_some hmark]
        · exact ih h
      · split at h
        · rename_i run others hrest hothers
          rcases List.mem_cons.mp h with rfl | h
          · simp [Token.text]
          · exact ih (hothers ▸ List.mem_cons_of_mem _ h)
        · rcases List.mem_cons.mp h with rfl | h
          · simp [Token.text]
          · exact ih h

/-- Modifiers change neither the line of a block nor its name, and each fault shows a token. -/
theorem reads_readModifiers {number : Nat} (hnumber : P number) {tokens : List Token}
    (htokens : ∀ token ∈ tokens, token.text ≠ []) (hb : block.StandsOn P) :
    Reads P (GeneralizationBlock.StandsOn P) (readModifiers block number tokens) := by
  fun_induction readModifiers block number tokens with
  | case1 block => exact .ok hb
  | case3 block word rest complete hword hgiven ih =>
    exact ih (fun token h => htokens token (List.mem_cons_of_mem _ h)) ⟨hb.line, hb.generic⟩
  | case5 block word hword hdiscriminator hgiven name others hname ih =>
    exact ih (fun token h => htokens token (by simp [h])) ⟨hb.line, hb.generic⟩
  | case2 | case4 | case6 | case7 | case8 | case9 =>
    exact .error ⟨hnumber, htokens _ List.mem_cons_self⟩

theorem reads_readCategories {number : Nat} (hnumber : P number) {tokens : List Token}
    (htokens : ∀ token ∈ tokens, token.text ≠ []) (hb : block.StandsOn P) :
    Reads P (Context.StandsOn P) (readCategories block number tokens) := by
  fun_induction readCategories block number tokens with
  | case1 block => exact .ok (Context.standsOn_of_blocks_eq rfl hb)
  | case2 block rest =>
    have hrest := reads_readModifiers hnumber
      (fun token h => htokens token (List.mem_cons_of_mem _ h)) hb
    exact hrest.map fun read hread => Context.standsOn_of_blocks_eq rfl hread
  | case3 block rest ih => exact ih (fun token h => htokens token (List.mem_cons_of_mem _ h)) hb
  | case4 block name rest hname ih =>
    exact ih (fun token h => htokens token (List.mem_cons_of_mem _ h)) ⟨hb.line, hb.generic⟩
  | case5 | case6 => exact .error ⟨hnumber, htokens _ List.mem_cons_self⟩

theorem standsOn_generalizationStart (hline : line.StandsOn P) :
    (generalizationStart line).StandsOn P := by
  unfold generalizationStart
  split
  · exact ⟨by simp, .error (hline.fault _)⟩
  · rename_i name rest hheader
    have hopened : (GeneralizationBlock.opened (nameOf name) line.number).StandsOn P :=
      ⟨hline.number, by simpa [GeneralizationBlock.opened, nameOf] using
        (isName_iff.mp (isName_of_header? hheader)).1⟩
    have htokens := Token.text_ne_nil_of_mem_ofText rest
    simp only
    split
    · exact Step.standsOn_to (Context.standsOn_of_blocks_eq rfl hopened)
    · rename_i tokens hrest
      rw [hrest] at htokens
      exact ⟨by simp, reads_readCategories hline.number
        (fun token h => htokens token (List.mem_cons_of_mem _ h)) hopened⟩
    · rename_i token tokens hbrace hrest
      rw [hrest] at htokens
      exact ⟨by simp, .error ⟨hline.number, htokens token List.mem_cons_self⟩⟩

end

theorem standsOn_blockStart (hline : line.StandsOn P) : (blockStart line).StandsOn P := by
  unfold blockStart
  split_ifs
  · exact standsOn_entityStart hline
  · exact standsOn_generalizationStart hline
  · exact ⟨by simp, .error (hline.firstRun _)⟩

/-- One line: what is read stands on it or on the lines of what was open before. -/
theorem Context.StandsOn.step {context : Context} (hc : context.StandsOn P)
    (hline : line.StandsOn P) : (context.step line).StandsOn P := by
  cases context with
  | outside => exact standsOn_blockStart hline
  | entityHeader block =>
    have hb : block.StandsOn P := hc _ List.mem_cons_self
    unfold Context.step
    simp only
    split
    · exact standsOn_entityLine hb hline.number
    · exact Step.standsOn_error ⟨hb.line, hb.name⟩ hb
  | entityBody block =>
    have hb : block.StandsOn P := hc _ List.mem_cons_self
    unfold Context.step
    simp only
    split_ifs
    · exact Step.standsOn_error (hline.firstRun _) hb
    · exact standsOn_entityLine hb hline.number
  | generalizationHeader block =>
    have hb : block.StandsOn P := hc _ List.mem_cons_self
    unfold Context.step
    simp only
    split_ifs
    · exact Step.standsOn_to (Context.standsOn_of_blocks_eq rfl hb)
    · exact Step.standsOn_error ⟨hb.line, hb.generic⟩ hb
  | generalizationBody block =>
    have hb : block.StandsOn P := hc _ List.mem_cons_self
    unfold Context.step
    simp only
    split_ifs
    · exact Step.standsOn_error (hline.firstRun _) hb
    · exact ⟨by simp, reads_readCategories hline.number (Token.text_ne_nil_of_mem_ofText _) hb⟩
  | generalizationEnd block =>
    have hb : block.StandsOn P := hc _ List.mem_cons_self
    unfold Context.step
    simp only
    split_ifs
    · have hstart := standsOn_blockStart hline
      exact ⟨by simpa using ⟨hb, hstart.blocks⟩, hstart.next⟩
    · have hread := reads_readModifiers hline.number
        (Token.text_ne_nil_of_mem_ofText line.text) hb
      exact ⟨by simp, hread.map fun read hread => Context.standsOn_of_blocks_eq rfl hread⟩
    · exact Step.standsOn_error (hline.firstRun _) hb

/-- A source that ends too early is at fault on the first line of the block that is open. -/
theorem Context.StandsOn.unfinished {context : Context} (hc : context.StandsOn P) :
    ∀ fault ∈ context.unfinished?, fault.StandsOn P := by
  intro fault hfault
  cases context with
  | outside | generalizationEnd => contradiction
  | entityHeader block | entityBody block =>
    cases hfault
    have hb : block.StandsOn P := hc _ List.mem_cons_self
    exact ⟨hb.line, hb.name⟩
  | generalizationHeader block | generalizationBody block =>
    cases hfault
    have hb : block.StandsOn P := hc _ List.mem_cons_self
    exact ⟨hb.line, hb.generic⟩

/-- All lines: the blocks, and the fault that ends the reading. -/
theorem Context.StandsOn.scan {context : Context} (hc : context.StandsOn P) {lines : List Line}
    (hlines : ∀ line ∈ lines, line.StandsOn P) :
    (∀ b ∈ (context.scan lines).blocks, b.StandsOn P) ∧
      ∀ fault ∈ (context.scan lines).malformed?, fault.StandsOn P := by
  induction lines generalizing context with
  | nil => exact ⟨hc, hc.unfinished⟩
  | cons line rest ih =>
    obtain ⟨hblocks, hnext⟩ := hc.step (hlines line List.mem_cons_self)
    rw [Context.scan]
    simp only
    split
    · rename_i fault hfault
      rw [hfault] at hnext
      cases hnext with
      | error hstands => exact ⟨hblocks, by simpa using hstands⟩
    · rename_i next hok
      rw [hok] at hnext
      cases hnext with
      | ok hcontext =>
        obtain ⟨hrest, hfault⟩ :=
          ih hcontext fun line hl => hlines line (List.mem_cons_of_mem _ hl)
        refine ⟨?_, hfault⟩
        intro b hb
        rcases List.mem_append.mp hb with hb | hb
        · exact hblocks b hb
        · exact hrest b hb

/-- An error on a line of a property, with some text of it. -/
def SourceError.StandsOn (P : Nat → Prop) (e : SourceError) : Prop :=
  ∃ number, e.line? = some number ∧ P number ∧ e.near ≠ ""

theorem Malformed.StandsOn.malformed {fault : Malformed} (h : fault.StandsOn P) :
    (SourceError.malformed fault).StandsOn P :=
  ⟨fault.line, rfl, h.line, by simpa [SourceError.near] using h.near⟩

theorem ne_empty_of_isName {name : String} (h : isName name.toList = true) : name ≠ "" := by
  rintro rfl
  contradiction

theorem mem_of_repeatedDeclaration?_eq_some {earlier : List String}
    {declarations : List (Located Declaration)} {d : Located Declaration}
    (h : repeatedDeclaration? earlier declarations = some d) : d ∈ declarations := by
  induction declarations generalizing earlier with
  | nil => contradiction
  | cons e rest ih =>
    rw [repeatedDeclaration?] at h
    split_ifs at h
    · cases h
      exact List.mem_cons_self
    · exact List.mem_cons_of_mem _ (ih h)

/-- A name that is declared again stands on the line of its second declaration. -/
theorem standsOn_of_repeatError?_eq_some {earlier blocks : List EntityBlock}
    (hblocks : ∀ b ∈ blocks, b.StandsOn P) (hprintable : ∀ b ∈ blocks, b.IsPrintable)
    {error : SourceError} (h : repeatError? earlier blocks = some error) : error.StandsOn P := by
  induction blocks generalizing earlier with
  | nil => contradiction
  | cons b rest ih =>
    have hb := hblocks b List.mem_cons_self
    have hprintableBlock := hprintable b List.mem_cons_self
    rw [repeatError?] at h
    split at h
    · cases h
      exact ⟨b.line, rfl, hb.line, ne_empty_of_isName hprintableBlock.name⟩
    · split at h
      · rename_i d hd
        cases h
        have hd := mem_of_repeatedDeclaration?_eq_some hd
        exact ⟨d.line, rfl, hb.declarations d hd,
          ne_empty_of_isName (hprintableBlock.declarations d hd).content.name⟩
      · exact ih (fun c hc => hblocks c (List.mem_cons_of_mem _ hc))
          (fun c hc => hprintable c (List.mem_cons_of_mem _ hc)) h

section

variable {blocks : List Block} (hblocks : ∀ b ∈ blocks, b.StandsOn P)
  (hprintable : ∀ b ∈ blocks, b.IsPrintable)

include hblocks hprintable

/-- A foreign key that leads nowhere is reported on its own line. -/
theorem standsOn_of_targetError?_eq_some {r : Located Relationship}
    (hr : r ∈ Block.relationships blocks) {error : SourceError}
    (h : targetError? (Block.schema blocks) r = some error) : error.StandsOn P := by
  obtain ⟨b, hb, hr⟩ := List.mem_flatMap.mp hr
  have hb := Block.mem_filterMap_entity?_iff.mp hb
  obtain ⟨d, hd, hr⟩ := List.mem_filterMap.mp hr
  obtain ⟨relationship, hrelationship, rfl⟩ := Option.map_eq_some_iff.mp hr
  obtain ⟨target, htarget, rfl⟩ := Option.map_eq_some_iff.mp hrelationship
  obtain ⟨violation, hviolation, rfl⟩ := Option.map_eq_some_iff.mp h
  refine ⟨d.line, rfl, EntityBlock.StandsOn.declarations (hblocks _ hb) d hd, ?_⟩
  have hprintableBlock : b.IsPrintable := hprintable _ hb
  have hname := (hprintableBlock.declarations d hd).content.reference target htarget
  unfold Schema.referenceViolation? at hviolation
  split at hviolation
  · cases hviolation
    exact ne_empty_of_isName hname.1
  · split_ifs at hviolation
    cases hviolation
    simp [SourceError.near, Violation.token]

/-- A name that a generalization does not find is reported on the line of its header. -/
theorem standsOn_of_generalizationError?_eq_some {b : GeneralizationBlock}
    (hb : .generalization b ∈ blocks) {error : SourceError}
    (h : generalizationError? (Block.schema blocks) b = some error) : error.StandsOn P := by
  have hstands : b.StandsOn P := hblocks _ hb
  have hprintableBlock : b.IsPrintable := hprintable _ hb
  obtain ⟨violation, hviolation, rfl⟩ := Option.map_eq_some_iff.mp h
  refine ⟨b.line, rfl, hstands.line, ?_⟩
  unfold Schema.generalizationViolation? at hviolation
  split_ifs at hviolation
  · cases hviolation
    exact ne_empty_of_isName hprintableBlock.generic
  · obtain ⟨category, hcategory, hviolation⟩ := List.exists_of_findSome?_eq_some hviolation
    obtain ⟨-, c, hc, rfl⟩ := (distinct_parts [] b.categories).2 category hcategory
    have hname := ne_empty_of_isName (hprintableBlock.categories c hc)
    unfold Schema.categoryViolation? at hviolation
    split_ifs at hviolation <;> cases hviolation <;> exact hname

/-- The first name of a cycle has a generalization, so the cycle has a line. -/
theorem standsOn_of_cycleError?_eq_some {error : SourceError}
    (h : cycleError? (Block.schema blocks) (blocks.filterMap Block.generalization?) = some error) :
    error.StandsOn P := by
  obtain ⟨names, hnames, rfl⟩ := Option.map_eq_some_iff.mp h
  obtain ⟨g, hg, hhead⟩ := Schema.exists_generalization_of_cycle?_eq_some hnames
  obtain ⟨b, hb, rfl⟩ := List.mem_map.mp hg
  have hfirst : ((blocks.filterMap Block.generalization?).find?
      fun b => names.head? = some b.generic).isSome :=
    List.find?_isSome.mpr ⟨b, hb, decide_eq_true hhead⟩
  obtain ⟨first, hfirst⟩ := Option.isSome_iff_exists.mp hfirst
  have hmem := Block.mem_filterMap_generalization?_iff.mp (List.mem_of_find?_eq_some hfirst)
  have hstands : first.StandsOn P := hblocks _ hmem
  have hprintableBlock : first.IsPrintable := hprintable _ hmem
  have hname : names.head? = some first.generic := by simpa using List.find?_some hfirst
  refine ⟨first.line, by simp [SourceError.line?, hfirst], hstands.line, ?_⟩
  change names.headD "" ≠ ""
  rw [List.headD_eq_head?_getD, hname]
  exact ne_empty_of_isName hprintableBlock.generic

theorem standsOn_of_resolve_eq_error {error : SourceError} (h : resolve blocks = .error error) :
    error.StandsOn P := by
  unfold resolve at h
  split at h
  · rename_i fault hfault
    cases h
    unfold referenceError? at hfault
    simp only [Option.or_eq_some_iff] at hfault
    obtain htarget | ⟨-, hgeneralization | ⟨-, hcycle⟩⟩ := hfault
    · obtain ⟨r, hr, h⟩ := List.exists_of_findSome?_eq_some htarget
      exact standsOn_of_targetError?_eq_some hblocks hprintable hr h
    · obtain ⟨b, hb, h⟩ := List.exists_of_findSome?_eq_some hgeneralization
      exact standsOn_of_generalizationError?_eq_some hblocks hprintable
        (Block.mem_filterMap_generalization?_iff.mp hb) h
    · exact standsOn_of_cycleError?_eq_some hblocks hprintable hcycle
  · contradiction

end

/-- Numbers count the lines of a source upward. -/
theorem exists_getElem?_of_mem_numbered {number : Nat} {raws : List (List Char)} {line : Line}
    (h : line ∈ numbered number raws) :
    ∃ index raw, raws[index]? = some raw ∧ line = ⟨index + number, strip raw⟩ ∧
      isSignificant (strip raw) = true := by
  induction raws generalizing number with
  | nil => contradiction
  | cons raw rest ih =>
    have hlater : line ∈ numbered (number + 1) rest → ∃ index later,
        (raw :: rest)[index]? = some later ∧ line = ⟨index + number, strip later⟩ ∧
          isSignificant (strip later) = true := by
      intro h
      obtain ⟨index, later, hlater, hline, hsignificant⟩ := ih h
      refine ⟨index + 1, later, hlater, ?_, hsignificant⟩
      rw [hline, Nat.add_right_comm, Nat.add_assoc]
    simp only [numbered] at h
    split_ifs at h with hsignificant
    · rcases List.mem_cons.mp h with rfl | h
      · exact ⟨0, raw, rfl, by rw [Nat.zero_add], hsignificant⟩
      · exact hlater h
    · exact hlater h

/-- A line of a source counted from one, neither blank nor a comment. -/
def IsSignificantLine (source : List Char) (number : Nat) : Prop :=
  ∃ index raw, number = index + 1 ∧ (lines source)[index]? = some raw ∧
    isSignificant (strip raw) = true

theorem standsOn_of_mem_significantLines {source : List Char} {line : Line}
    (h : line ∈ significantLines source) : line.StandsOn (IsSignificantLine source) := by
  obtain ⟨index, raw, hraw, rfl, hsignificant⟩ := exists_getElem?_of_mem_numbered h
  exact ⟨⟨index, raw, rfl, hraw, hsignificant⟩, text_ne_nil_of_mem_numbered h,
    startsNonblank_strip raw⟩

/-- Whatever stops the reading of a source stands on one of its significant lines. -/
theorem standsOn_of_parse_eq_error {source : String} {error : SourceError}
    (h : parse source = .error error) : error.StandsOn (IsSignificantLine source.toList) := by
  obtain ⟨hblocks, hfault⟩ := Context.standsOn_outside.scan
    fun line (h : line ∈ significantLines source.toList) => standsOn_of_mem_significantLines h
  have hprintable := isPrintable_of_mem_scan source.toList
  cases hread : readBlocks source.toList with
  | ok blocks =>
    rw [parse, hread] at h
    rw [((readBlocks_eq_ok_iff _ _).mp hread).1] at hblocks hprintable
    exact standsOn_of_resolve_eq_error hblocks hprintable h
  | error fault =>
    rw [parse, hread] at h
    cases h
    unfold readBlocks at hread
    simp only at hread
    split at hread
    · rename_i repeated hrepeated
      cases hread
      exact standsOn_of_repeatError?_eq_some
        (fun b hb => hblocks _ (Block.mem_filterMap_entity?_iff.mp hb))
        (fun b hb => hprintable _ (Block.mem_filterMap_entity?_iff.mp hb)) hrepeated
    · rename_i fault hnone hmalformed
      cases hread
      exact (hfault fault hmalformed).malformed
    · contradiction

/-- Every source is read to a schema or to one error, on a significant line and with some text of
it. Wherever the first word of a line is asked for, there is one. -/
theorem parse_ok_or_error_on_significant_line (source : String) :
    (∀ line ∈ significantLines source.toList, firstRun line.text ≠ []) ∧
    ((∃ document, parse source = .ok document) ∨
      ∃ error number, parse source = .error error ∧ error.line? = some number ∧
        IsSignificantLine source.toList number ∧ error.near ≠ "") := by
  have hlines := fun line (h : line ∈ significantLines source.toList) =>
    standsOn_of_mem_significantLines h
  refine ⟨fun line h => firstRun_ne_nil (hlines line h).text (hlines line h).starts, ?_⟩
  cases hparse : parse source with
  | ok document => exact .inl ⟨document, rfl⟩
  | error error =>
    obtain ⟨number, hnumber, hline, hnear⟩ := standsOn_of_parse_eq_error hparse
    exact .inr ⟨error, number, rfl, hnumber, hline, hnear⟩

end EntityDiagram.Source
