import EntityDiagram.Proofs.Source.AttributeLine
import EntityDiagram.Proofs.Source.Blocks

/-! What a source can put into a schema: names that are words, types that are trimmed, labels that
stay in their quotes. Every line that is read keeps this, so the schema of a source can be written
down again. -/
namespace EntityDiagram.Source

open Text

structure EntityBlock.IsPrintable (b : EntityBlock) : Prop where
  name : isName b.name.toList = true
  declarations : ∀ d ∈ b.declarations, d.value.IsPrintable

structure GeneralizationBlock.IsPrintable (b : GeneralizationBlock) : Prop where
  generic : isName b.generic.toList = true
  categories : ∀ name ∈ b.categories, isName name.value.toList = true
  discriminator : ∀ name ∈ b.discriminator, isName name.toList = true

def Block.IsPrintable : Block → Prop
  | entity b => b.IsPrintable
  | generalization b => b.IsPrintable

@[simp] theorem Block.isPrintable_entity {b : EntityBlock} :
    (entity b).IsPrintable ↔ b.IsPrintable := Iff.rfl

@[simp] theorem Block.isPrintable_generalization {b : GeneralizationBlock} :
    (generalization b).IsPrintable ↔ b.IsPrintable := Iff.rfl

/-- What is open can be written down. -/
def Context.IsPrintable (c : Context) : Prop := ∀ b ∈ c.blocks, b.IsPrintable

/-- What a line closes, and what it leaves open, can be written down. -/
structure Step.IsPrintable (s : Step) : Prop where
  blocks : ∀ b ∈ s.blocks, b.IsPrintable
  next : ∀ c, s.next = .ok c → c.IsPrintable

theorem EntityBlock.IsPrintable.declare {b : EntityBlock} (h : b.IsPrintable)
    {d : Located Declaration} (hd : d.value.IsPrintable) : (b.declare d).IsPrintable := by
  refine ⟨h.name, ?_⟩
  intro e he
  rcases List.mem_append.mp he with he | he
  · exact h.declarations e he
  · rwa [List.mem_singleton.mp he]

theorem GeneralizationBlock.IsPrintable.addCategory {b : GeneralizationBlock} (h : b.IsPrintable)
    {name : Located String} (hname : isName name.value.toList = true) :
    (b.addCategory name).IsPrintable := by
  refine ⟨h.generic, ?_, h.discriminator⟩
  intro c hc
  rcases List.mem_append.mp hc with hc | hc
  · exact h.categories c hc
  · rwa [List.mem_singleton.mp hc]

theorem Step.isPrintable_error (fault : Malformed) {blocks : List Block}
    (h : ∀ b ∈ blocks, b.IsPrintable) : Step.IsPrintable ⟨blocks, .error fault⟩ :=
  ⟨h, by simp⟩

theorem Step.isPrintable_to {c : Context} (h : c.IsPrintable) : (Step.to c).IsPrintable := by
  refine ⟨by simp [Step.to], ?_⟩
  intro next hnext
  cases hnext
  exact h

theorem Step.isPrintable_error_singleton (fault : Malformed) {b : Block} (h : b.IsPrintable) :
    Step.IsPrintable ⟨[b], .error fault⟩ :=
  isPrintable_error fault (by simpa using h)

theorem isName_of_header? {keyword text name rest : List Char}
    (h : header? keyword text = some (name, rest)) : isName name = true := by
  simp only [header?, Option.bind_eq_bind, Option.bind_eq_some_iff] at h
  obtain ⟨after, -, blanks, -, hname⟩ := h
  exact (name?_eq_some_iff.mp hname).1

/-- A closing brace leaves text without blanks at the end. -/
theorem splitClose_parts {text : List Char} (ht : OnOneLine text) (he : EndsNonblank text) :
    OnOneLine (splitClose text).1 ∧ EndsNonblank (splitClose text).1 := by
  unfold splitClose
  split_ifs with hclose
  · have hsubset : dropLastBlanks text.dropLast ⊆ text :=
      List.Subset.trans (prefix_dropLastBlanks _).subset (List.dropLast_subset text)
    exact ⟨ht.subset hsubset, endsNonblank_dropLastBlanks _⟩
  · exact ⟨ht, he⟩

variable {line : Line}

section

variable {block : EntityBlock}

theorem isPrintable_entityLine (hb : block.IsPrintable) (ht : OnOneLine line.text)
    (he : EndsNonblank line.text) : (entityLine block line).IsPrintable := by
  obtain ⟨hflat, hends⟩ := splitClose_parts ht he
  have hfinish : ∀ (closes : Bool) (b : EntityBlock), b.IsPrintable →
      Step.IsPrintable (if closes then ⟨[.entity b], .ok .outside⟩ else .to (.entityBody b)) := by
    intro closes b hb
    cases closes with
    | true =>
      refine ⟨by simpa using hb, ?_⟩
      intro c hc
      cases hc
      simp [Context.IsPrintable, Context.blocks]
    | false => exact Step.isPrintable_to (by simpa [Context.IsPrintable, Context.blocks] using hb)
  unfold entityLine
  generalize splitClose line.text = split at hflat hends
  obtain ⟨text, closes⟩ := split
  simp only
  split
  · exact hfinish closes block hb
  · split
    · exact Step.isPrintable_error_singleton _ hb
    · rename_i d hd
      exact hfinish closes _ (hb.declare (isPrintable_of_readAttribute hd hflat hends))

theorem isPrintable_strip_entityLine (hb : block.IsPrintable) {body : List Char}
    (ht : OnOneLine body) (number : Nat) :
    (entityLine block ⟨number, strip body⟩).IsPrintable :=
  isPrintable_entityLine hb (ht.subset (strip_subset body)) (endsNonblank_strip body)

theorem isPrintable_opened {name : List Char} (h : isName name = true) (number : Nat) :
    (EntityBlock.opened (nameOf name) number).IsPrintable :=
  ⟨by simpa [EntityBlock.opened, nameOf] using h, by simp [EntityBlock.opened]⟩

theorem isPrintable_entityStart (ht : OnOneLine line.text) : (entityStart line).IsPrintable := by
  unfold entityStart
  split
  · exact Step.isPrintable_error _ (by simp)
  · rename_i name rest hheader
    have hopened := isPrintable_opened (isName_of_header? hheader) line.number
    have hrest : strip rest ⊆ line.text := by
      simp only [header?, Option.bind_eq_bind, Option.bind_eq_some_iff] at hheader
      obtain ⟨after, hafter, blanks, hblanks, hname⟩ := hheader
      obtain ⟨-, rfl, -⟩ := name?_eq_some_iff.mp hname
      have hsuffix := (suffix_of_afterBlanks? hblanks).trans (suffix_of_isPrefixOf? hafter)
      exact List.Subset.trans (strip_subset rest)
        ((List.suffix_append name rest).trans hsuffix).subset
    simp only
    split
    · exact Step.isPrintable_to (by simpa [Context.IsPrintable, Context.blocks] using hopened)
    · rename_i body hbody
      have hflat : OnOneLine body :=
        ht.subset fun c hc => hrest (hbody ▸ List.mem_cons_of_mem _ hc)
      exact isPrintable_strip_entityLine hopened hflat line.number
    · exact Step.isPrintable_error_singleton _ hopened

end

section

variable {block : GeneralizationBlock}

theorem isPrintable_readModifiers (hb : block.IsPrintable) {number : Nat} {tokens : List Token}
    {read : GeneralizationBlock} (h : readModifiers block number tokens = .ok read) :
    read.IsPrintable := by
  induction block, tokens using readModifiers.induct with
  | case1 block =>
    cases h
    exact hb
  | case2 block word rest complete hword hgiven =>
    unfold readModifiers at h
    simp [hword, hgiven] at h
  | case3 block word rest complete hword hgiven ih =>
    unfold readModifiers at h
    simp only [hword, hgiven, Bool.false_eq_true, if_false] at h
    exact ih ⟨hb.generic, hb.categories, hb.discriminator⟩ h
  | case4 block word rest hword hdiscriminator hgiven =>
    unfold readModifiers at h
    simp [hword, hdiscriminator, hgiven] at h
  | case5 block word hword hdiscriminator hgiven name others hname ih =>
    unfold readModifiers at h
    simp only [hword, hdiscriminator, hgiven, hname, Bool.false_eq_true, if_false, if_true] at h
    exact ih ⟨hb.generic, hb.categories, by simpa [nameOf] using hname⟩ h
  | case6 block word hword hdiscriminator hgiven name others hname =>
    unfold readModifiers at h
    simp [hword, hdiscriminator, hgiven, hname] at h
  | case7 block word rest hword hdiscriminator hgiven hform =>
    unfold readModifiers at h
    simp only [hword, hdiscriminator, hgiven, Bool.false_eq_true, if_false, if_true] at h
    contradiction
  | case8 block word rest hword hdiscriminator =>
    unfold readModifiers at h
    simp [hword, hdiscriminator] at h
  | case9 block token rest hrun =>
    cases token with
    | run word => exact (hrun word rfl).elim
    | openBrace => contradiction
    | closeBrace => contradiction
    | equals => contradiction
    | comma => contradiction

theorem isPrintable_readCategories (hb : block.IsPrintable) {number : Nat} {tokens : List Token}
    {context : Context} (h : readCategories block number tokens = .ok context) :
    context.IsPrintable := by
  induction tokens generalizing block with
  | nil =>
    cases h
    simpa [Context.IsPrintable, Context.blocks] using hb
  | cons token rest ih =>
    cases token with
    | openBrace => contradiction
    | closeBrace =>
      cases hread : readModifiers block number rest with
      | error fault =>
        rw [readCategories, hread] at h
        contradiction
      | ok read =>
        rw [readCategories, hread] at h
        cases h
        simpa [Context.IsPrintable, Context.blocks] using isPrintable_readModifiers hb hread
    | equals => contradiction
    | comma => exact ih hb h
    | run name =>
      rw [readCategories] at h
      split_ifs at h with hname
      exact ih (hb.addCategory (by simpa [nameOf] using hname)) h

theorem isPrintable_generalizationStart (line : Line) : (generalizationStart line).IsPrintable := by
  unfold generalizationStart
  split
  · exact Step.isPrintable_error _ (by simp)
  · rename_i name rest hheader
    have hopened : (GeneralizationBlock.opened (nameOf name) line.number).IsPrintable :=
      ⟨by simpa [GeneralizationBlock.opened, nameOf] using isName_of_header? hheader,
        by simp [GeneralizationBlock.opened], by simp [GeneralizationBlock.opened]⟩
    simp only
    split
    · exact Step.isPrintable_to (by simpa [Context.IsPrintable, Context.blocks] using hopened)
    · exact ⟨by simp, fun c hc => isPrintable_readCategories hopened hc⟩
    · exact Step.isPrintable_error _ (by simp)

end

theorem isPrintable_blockStart (ht : OnOneLine line.text) : (blockStart line).IsPrintable := by
  unfold blockStart
  split_ifs
  · exact isPrintable_entityStart ht
  · exact isPrintable_generalizationStart line
  · exact Step.isPrintable_error _ (by simp)

/-- A line of a source keeps what is open, and what is closed, printable. -/
theorem Context.IsPrintable.step {context : Context} (hc : context.IsPrintable)
    (ht : OnOneLine line.text) (he : EndsNonblank line.text) :
    (context.step line).IsPrintable := by
  cases context with
  | outside => exact isPrintable_blockStart ht
  | entityHeader block =>
    have hb : block.IsPrintable := hc _ List.mem_cons_self
    unfold Context.step
    simp only
    split
    · rename_i body hbody
      have hflat : OnOneLine body := ht.subset fun c hc => hbody ▸ List.mem_cons_of_mem _ hc
      exact isPrintable_strip_entityLine hb hflat line.number
    · exact Step.isPrintable_error_singleton _ hb
  | entityBody block =>
    have hb : block.IsPrintable := hc _ List.mem_cons_self
    unfold Context.step
    simp only
    split_ifs
    · exact Step.isPrintable_error_singleton _ hb
    · exact isPrintable_entityLine hb ht he
  | generalizationHeader block =>
    have hb : block.IsPrintable := hc _ List.mem_cons_self
    unfold Context.step
    simp only
    split_ifs
    · exact Step.isPrintable_to (by simpa [Context.IsPrintable, Context.blocks] using hb)
    · exact Step.isPrintable_error_singleton _ hb
  | generalizationBody block =>
    have hb : block.IsPrintable := hc _ List.mem_cons_self
    unfold Context.step
    simp only
    split_ifs
    · exact Step.isPrintable_error_singleton _ hb
    · exact ⟨by simp, fun c hc => isPrintable_readCategories hb hc⟩
  | generalizationEnd block =>
    have hb : block.IsPrintable := hc _ List.mem_cons_self
    unfold Context.step
    simp only
    split_ifs
    · have hstart := isPrintable_blockStart ht
      exact ⟨by simpa using ⟨hb, hstart.blocks⟩, hstart.next⟩
    · refine ⟨by simp, ?_⟩
      intro c hc
      cases hread : readModifiers block line.number (Token.ofText line.text) with
      | error fault =>
        rw [hread] at hc
        contradiction
      | ok read =>
        rw [hread] at hc
        cases hc
        simpa [Context.IsPrintable, Context.blocks] using isPrintable_readModifiers hb hread
    · exact Step.isPrintable_error_singleton _ hb

/-- What is read from lines on can be written down. -/
theorem Context.IsPrintable.scan {context : Context} (hc : context.IsPrintable)
    {lines : List Line} (hlines : ∀ line ∈ lines, OnOneLine line.text ∧ EndsNonblank line.text) :
    ∀ b ∈ (context.scan lines).blocks, b.IsPrintable := by
  induction lines generalizing context with
  | nil => exact hc
  | cons line rest ih =>
    obtain ⟨ht, he⟩ := hlines line List.mem_cons_self
    have hstep := hc.step ht he
    rw [Context.scan]
    simp only
    split
    · exact hstep.blocks
    · rename_i next hnext
      have hrest := ih (hstep.next next hnext)
        fun line hl => hlines line (List.mem_cons_of_mem _ hl)
      intro b hb
      rcases List.mem_append.mp hb with hb | hb
      · exact hstep.blocks b hb
      · exact hrest b hb

theorem parts_of_mem_numbered {number : Nat} {raws : List (List Char)} {line : Line}
    (h : line ∈ numbered number raws) : ∃ raw ∈ raws, line.text = strip raw := by
  induction raws generalizing number with
  | nil => contradiction
  | cons raw rest ih =>
    simp only [numbered] at h
    split_ifs at h
    · rcases List.mem_cons.mp h with rfl | h
      · exact ⟨raw, List.mem_cons_self, rfl⟩
      · obtain ⟨raw, hraw, htext⟩ := ih h
        exact ⟨raw, List.mem_cons_of_mem _ hraw, htext⟩
    · obtain ⟨raw, hraw, htext⟩ := ih h
      exact ⟨raw, List.mem_cons_of_mem _ hraw, htext⟩

/-- Whatever a source says, what is read of it can be written down again. -/
theorem isPrintable_of_mem_scan (source : List Char) :
    ∀ b ∈ (Context.outside.scan (significantLines source)).blocks, b.IsPrintable := by
  apply Context.IsPrintable.scan
  · simp [Context.IsPrintable, Context.blocks]
  · intro line hline
    obtain ⟨raw, hraw, htext⟩ := parts_of_mem_numbered hline
    rw [htext]
    exact ⟨(onOneLine_of_mem_lines hraw).subset (strip_subset raw), endsNonblank_strip raw⟩

theorem distinct_parts (earlier : List String) (names : List (Located String)) :
    (distinct earlier names).Nodup ∧ ∀ name ∈ distinct earlier names,
      name ∉ earlier ∧ ∃ c ∈ names, c.value = name := by
  induction names generalizing earlier with
  | nil => simp [distinct]
  | cons c rest ih =>
    rw [distinct]
    split_ifs with h
    · obtain ⟨hnodup, hmem⟩ := ih earlier
      refine ⟨hnodup, ?_⟩
      intro name hname
      obtain ⟨hnew, d, hd, rfl⟩ := hmem name hname
      exact ⟨hnew, d, List.mem_cons_of_mem _ hd, rfl⟩
    · obtain ⟨hnodup, hmem⟩ := ih (c.value :: earlier)
      refine ⟨List.nodup_cons.mpr ⟨?_, hnodup⟩, ?_⟩
      · intro hc
        exact (hmem _ hc).1 List.mem_cons_self
      · intro name hname
        rcases List.mem_cons.mp hname with rfl | hname
        · exact ⟨h, c, List.mem_cons_self, rfl⟩
        · obtain ⟨hnew, d, hd, rfl⟩ := hmem name hname
          exact ⟨fun hold => hnew (List.mem_cons_of_mem _ hold), d, List.mem_cons_of_mem _ hd, rfl⟩

/-- A generalization as it can be written. -/
structure IsWritable (g : Generalization) : Prop where
  generic : isName g.generic.toList = true
  categories : ∀ name ∈ g.categories, isName name.toList = true
  distinct : g.categories.Nodup
  discriminator : ∀ name ∈ g.discriminator, isName name.toList = true

/-- A schema as it can be written. -/
structure IsPrintableSchema (s : Schema) : Prop where
  names : ∀ e ∈ s.entities, isName e.name.toList = true
  attributes : ∀ e ∈ s.entities, ∀ a ∈ e.attributes, IsDeclarable a
  labels : ∀ r ∈ s.relationships, ∀ l ∈ r.label, l ≠ "" ∧ IsQuotable l.toList
  generalizations : ∀ g ∈ s.generalizations, IsWritable g

/-- Blocks that can be written down declare a schema that can be. -/
theorem isPrintableSchema_of_blocks {blocks : List Block} (h : ∀ b ∈ blocks, b.IsPrintable) :
    IsPrintableSchema (Block.schema blocks) := by
  have hentity : ∀ b ∈ blocks.filterMap Block.entity?, b.IsPrintable :=
    fun b hb => h _ (Block.mem_filterMap_entity?_iff.mp hb)
  have hgeneralization : ∀ b ∈ blocks.filterMap Block.generalization?, b.IsPrintable :=
    fun b hb => h _ (Block.mem_filterMap_generalization?_iff.mp hb)
  constructor
  · intro e he
    obtain ⟨b, hb, rfl⟩ := List.mem_map.mp he
    exact (hentity b hb).name
  · intro e he a ha
    obtain ⟨b, hb, rfl⟩ := List.mem_map.mp he
    obtain ⟨d, hd, rfl⟩ := List.mem_map.mp (b.attributes_perm.mem_iff.mp ha)
    exact ((hentity b hb).declarations d hd).content
  · intro r hr l hl
    rw [Block.schema_relationships, List.mem_flatMap] at hr
    obtain ⟨b, hb, hr⟩ := hr
    obtain ⟨d, hd, hr⟩ := List.mem_filterMap.mp hr
    obtain ⟨target, -, rfl⟩ := Option.map_eq_some_iff.mp hr
    exact ((hentity b hb).declarations d hd).label l hl
  · intro g hg
    obtain ⟨b, hb, rfl⟩ := List.mem_map.mp hg
    have hprintable := hgeneralization b hb
    obtain ⟨hnodup, hmem⟩ := distinct_parts [] b.categories
    refine ⟨hprintable.generic, ?_, hnodup, hprintable.discriminator⟩
    intro name hname
    obtain ⟨-, c, hc, rfl⟩ := hmem name hname
    exact hprintable.categories c hc

end EntityDiagram.Source
