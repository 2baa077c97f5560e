import EntityDiagram.Proofs.Schema.Order
import EntityDiagram.Proofs.Source.Renumbering
import EntityDiagram.Proofs.Source.Resolution
import EntityDiagram.Proofs.Text.Characters

/-! Two sources, one after the other. Where the first one ends, nothing is open but a generalization
that takes modifiers, and the first block of the second one ends it; so the blocks of both are read
as they are alone. Whether the references among them lead to declarations does not depend on the
order of the two. -/
namespace EntityDiagram.Source

open Text

theorem numbered_append (number : Nat) (raws others : List (List Char)) :
    numbered number (raws ++ others) =
      numbered number raws ++ numbered (number + raws.length) others := by
  induction raws generalizing number with
  | nil => rfl
  | cons raw rest ih =>
    have hnumber : number + (raw :: rest).length = number + 1 + rest.length := by
      rw [List.length_cons]
      omega
    rw [List.cons_append, numbered, numbered, ih, hnumber]
    split <;> rfl

theorem numbered_add (number shift : Nat) (raws : List (List Char)) :
    numbered (number + shift) raws = (numbered number raws).map (·.renumber (· + shift)) := by
  induction raws generalizing number with
  | nil => rfl
  | cons raw rest ih =>
    have hnumber : number + shift + 1 = number + 1 + shift := by omega
    rw [numbered, numbered, hnumber, ih]
    split <;> rfl

theorem numbered_eq_nil {number : Nat} {raws : List (List Char)} (h : ∀ raw ∈ raws, raw = []) :
    numbered number raws = [] := by
  induction raws generalizing number with
  | nil => rfl
  | cons raw rest ih =>
    rw [h raw List.mem_cons_self, numbered, ih fun raw hraw => h raw (List.mem_cons_of_mem _ hraw)]
    rfl

/-- The significant lines of two sources, those of the second one further down. -/
theorem exists_significantLines_append (s t : List Char) : ∃ shift,
    significantLines (s ++ '\n' :: t) =
      significantLines s ++ (significantLines t).map (·.renumber (· + shift)) := by
  obtain ⟨last, hlast, hlines⟩ := exists_lines_append_newline s
  refine ⟨(lines s ++ last).length, ?_⟩
  rw [significantLines, hlines, numbered_append, numbered_append, numbered_eq_nil hlast,
    List.append_nil, numbered_add]
  rfl

/-- A line that begins a block. -/
def BeginsBlock (text : List Char) : Prop :=
  (beginsWith entityKeyword text || beginsWith generalizationKeyword text) = true

/-- A generalization that takes modifiers ends where a block begins. -/
theorem Context.scan_generalizationEnd_of_beginsBlock {block : GeneralizationBlock}
    {lines : List Line} (h : ∀ line ∈ lines.head?, BeginsBlock line.text) :
    (generalizationEnd block).scan lines =
      ⟨.generalization block :: (outside.scan lines).blocks, (outside.scan lines).malformed?⟩ := by
  cases lines with
  | nil => rfl
  | cons line rest =>
    have hstep : (generalizationEnd block).step line =
        ⟨.generalization block :: (blockStart line).blocks, (blockStart line).next⟩ :=
      if_pos (h line rfl)
    have houtside : outside.step line = blockStart line := rfl
    rw [scan, scan, hstep, houtside]
    obtain ⟨blocks, next⟩ := blockStart line
    cases next <;> rfl

/-- Lines that leave nothing open, and then lines that begin a block. -/
theorem Context.scan_append_of_beginsBlock {c : Context} {lines others : List Line}
    {blocks : List Block} (h : c.scan lines = ⟨blocks, none⟩)
    (hbegins : ∀ line ∈ others.head?, BeginsBlock line.text) : c.scan (lines ++ others) =
      ⟨blocks ++ (outside.scan others).blocks, (outside.scan others).malformed?⟩ := by
  induction lines generalizing c blocks with
  | nil =>
    obtain ⟨rfl, hclosed⟩ := Scan.mk.inj h
    cases c with
    | outside => rfl
    | generalizationEnd block => exact scan_generalizationEnd_of_beginsBlock hbegins
    | entityHeader | entityBody | generalizationHeader | generalizationBody => cases hclosed
  | cons line rest ih =>
    rw [scan] at h
    rw [List.cons_append, scan]
    cases hstep : (c.step line).next with
    | error fault =>
      rw [hstep] at h
      cases h
    | ok later =>
      simp only [hstep, Scan.mk.injEq] at h
      have hlater : later.scan rest = ⟨(later.scan rest).blocks, none⟩ := by rw [← h.2]
      simp [ih hlater, ← h.1]

/-- A source that is well-formed begins with a block. -/
theorem Context.beginsBlock_of_scan {lines : List Line} {blocks : List Block}
    (h : outside.scan lines = ⟨blocks, none⟩) : ∀ line ∈ lines.head?, BeginsBlock line.text := by
  intro line hline
  obtain ⟨rest, rfl⟩ := List.head?_eq_some_iff.mp hline
  by_contra hstarts
  have hneither : ¬ beginsWith entityKeyword line.text ∧
      ¬ beginsWith generalizationKeyword line.text := by simpa [BeginsBlock] using hstarts
  rw [scan, step, blockStart, if_neg hneither.1, if_neg hneither.2] at h
  cases h

/-- Lines that leave nothing open, and then other lines. -/
theorem Context.scan_append {context : Context} {lines others : List Line}
    {blocks next : List Block} (h : context.scan lines = ⟨blocks, none⟩)
    (hothers : outside.scan others = ⟨next, none⟩) :
    context.scan (lines ++ others) = ⟨blocks ++ next, none⟩ := by
  rw [scan_append_of_beginsBlock h (beginsBlock_of_scan hothers), hothers]

variable {s t : String} {blocks others : List Block}

/-- The blocks of two sources are those of the first one and then those of the second one, further
down. -/
theorem exists_scan_append (hs : readBlocks s.toList = .ok blocks)
    (ht : readBlocks t.toList = .ok others) : ∃ joined,
      Context.outside.scan (significantLines (s ++ "\n" ++ t).toList) = ⟨joined, none⟩ ∧
        Block.schema joined = Block.schema blocks ++ Block.schema others := by
  have htext : (s ++ "\n" ++ t).toList = s.toList ++ '\n' :: t.toList := by simp
  obtain ⟨shift, hlines⟩ := exists_significantLines_append s.toList t.toList
  have hmoved := Context.scan_renumber (· + shift) .outside (significantLines t.toList)
  rw [((readBlocks_eq_ok_iff _ _).mp ht).1] at hmoved
  refine ⟨blocks ++ others.map (·.renumber (· + shift)), ?_, ?_⟩
  · rw [htext, hlines]
    exact Context.scan_append ((readBlocks_eq_ok_iff _ _).mp hs).1 hmoved
  · have hothers := Block.schema_renumber (· + shift) others
    rw [Schema.mk.injEq, Block.schema_entities_append, Block.schema_relationships_append,
      Block.schema_generalizations_append, hothers]
    exact ⟨rfl, rfl, rfl⟩

/-- Blocks that are sound one by one repeat nothing but the name of an entity. -/
theorem redeclared_of_repeatError?_eq_some {earlier blocks : List EntityBlock}
    (hblocks : ∀ b ∈ blocks, (b.declarations.map (·.value.content.name)).Nodup)
    {error : SourceError} (h : repeatError? earlier blocks = some error) :
    ∃ name first line, error = .redeclared name first line ∧
      2 ≤ ((earlier ++ blocks).map (·.name)).count name := by
  induction blocks generalizing earlier with
  | nil => cases h
  | cons b rest ih =>
    rw [repeatError?] at h
    cases hfind : earlier.find? (·.name = b.name) with
    | some first =>
      rw [hfind] at h
      cases h
      refine ⟨b.name, first.line, b.line, rfl, ?_⟩
      have hname : first.name = b.name := by simpa using List.find?_some hfind
      have hearlier : b.name ∈ earlier.map (·.name) :=
        hname ▸ List.mem_map_of_mem (List.mem_of_find?_eq_some hfind)
      have hcount := List.count_pos_iff.mpr hearlier
      rw [List.map_append, List.map_cons, List.count_append, List.count_cons_self]
      omega
    | none =>
      have hdistinct := (repeatedDeclaration?_eq_none_iff [] b.declarations).mpr
        ⟨hblocks b List.mem_cons_self, by simp⟩
      rw [hfind, hdistinct] at h
      obtain ⟨name, first, line, herror, hcount⟩ :=
        ih (fun b hb => hblocks b (List.mem_cons_of_mem _ hb)) h
      refine ⟨name, first, line, herror, ?_⟩
      have hperm : (b :: earlier ++ rest).Perm (earlier ++ b :: rest) := List.perm_middle.symm
      rwa [(hperm.map _).count_eq] at hcount

/-- The names of the entities that blocks declare. -/
def Block.names (blocks : List Block) : List String := (schema blocks).entities.map (·.name)

theorem Block.map_name_filterMap_entity? (blocks : List Block) :
    (blocks.filterMap entity?).map (·.name) = names blocks := by
  rw [names, schema, List.map_map]
  rfl

/-- The blocks of two sources, unless both declare an entity of one name. -/
theorem readBlocks_append_cases (hs : readBlocks s.toList = .ok blocks)
    (ht : readBlocks t.toList = .ok others) :
    ((Block.names blocks).Disjoint (Block.names others) ∧ ∃ joined,
      readBlocks (s ++ "\n" ++ t).toList = .ok joined ∧
        Block.schema joined = Block.schema blocks ++ Block.schema others) ∨
    ∃ name first line, name ∈ Block.names blocks ∧ name ∈ Block.names others ∧
      readBlocks (s ++ "\n" ++ t).toList = .error (.redeclared name first line) := by
  have names := ((readBlocks_eq_ok_iff _ _).mp hs).2
  have names' := ((readBlocks_eq_ok_iff _ _).mp ht).2
  obtain ⟨joined, hjoined, hschema⟩ := exists_scan_append hs ht
  cases herror : repeatError? [] (joined.filterMap Block.entity?) with
  | none =>
    have hdistinct := (repeatError?_eq_none_iff_hasDistinctNames joined).mp herror
    left
    refine ⟨?_, joined, (readBlocks_eq_ok_iff _ _).mpr ⟨hjoined, hdistinct⟩, hschema⟩
    rw [hschema] at hdistinct
    exact (names.append_iff names').mp hdistinct
  | some error =>
    have hblocks : ∀ b ∈ joined.filterMap Block.entity?,
        (b.declarations.map (·.value.content.name)).Nodup := by
      intro b hb
      have hentity : b.entity ∈ (Block.schema joined).entities := List.mem_map_of_mem hb
      rw [hschema] at hentity
      rw [← b.nodup_attributes_iff]
      rcases List.mem_append.mp hentity with hmem | hmem
      · exact names.attributes _ hmem
      · exact names'.attributes _ hmem
    obtain ⟨name, first, line, rfl, hcount⟩ := redeclared_of_repeatError?_eq_some hblocks herror
    have hnames : Block.names joined = Block.names blocks ++ Block.names others := by
      rw [Block.names, hschema]
      exact List.map_append
    rw [List.nil_append, Block.map_name_filterMap_entity?, hnames, List.count_append] at hcount
    -- Neither source alone has the name twice.
    have hfirst := List.nodup_iff_count_le_one.mp names.entities name
    have hsecond := List.nodup_iff_count_le_one.mp names'.entities name
    have hpos : 0 < (Block.names blocks).count name ∧ 0 < (Block.names others).count name := by
      unfold Block.names at hcount ⊢
      omega
    right
    refine ⟨name, first, line, List.count_pos_iff.mp hpos.1, List.count_pos_iff.mp hpos.2, ?_⟩
    rw [readBlocks, hjoined, herror]

/-- Two sources one after the other are accepted when their declarations together are valid. -/
theorem exists_parse_append_eq_ok_iff (hs : readBlocks s.toList = .ok blocks)
    (ht : readBlocks t.toList = .ok others) :
    (∃ document, parse (s ++ "\n" ++ t) = .ok document) ↔
      (Block.schema blocks ++ Block.schema others).violation? = none := by
  obtain ⟨joined, hjoined, hschema⟩ := exists_scan_append hs ht
  simp only [parse_eq_ok_iff, hjoined]
  constructor
  · rintro ⟨document, found, ⟨⟩, hvalid, -⟩
    rwa [hschema] at hvalid
  · intro hvalid
    exact ⟨_, joined, rfl, hschema ▸ hvalid, rfl⟩

theorem schema_of_parse_append_eq_ok (hs : readBlocks s.toList = .ok blocks)
    (ht : readBlocks t.toList = .ok others) {document : Document}
    (h : parse (s ++ "\n" ++ t) = .ok document) :
    document.schema = Block.schema blocks ++ Block.schema others := by
  obtain ⟨joined, hjoined, hschema⟩ := exists_scan_append hs ht
  obtain ⟨found, hfound, -, rfl⟩ := (parse_eq_ok_iff _ _).mp h
  rw [hjoined] at hfound
  cases hfound
  exact hschema

/-- Sources whose blocks can be read may stand in either order. If they declare different entities,
the blocks of both are read as they are alone; the two orders are accepted alike, and what they
declare differs in its order only. If they share the name of an entity, both orders declare one
again. -/
theorem parse_append_comm (hs : readBlocks s.toList = .ok blocks)
    (ht : readBlocks t.toList = .ok others) :
    ((Block.names blocks).Disjoint (Block.names others) →
      (∃ joined, readBlocks (s ++ "\n" ++ t).toList = .ok joined ∧
        Block.schema joined = Block.schema blocks ++ Block.schema others) ∧
      ((∃ document, parse (s ++ "\n" ++ t) = .ok document) ↔
        ∃ document, parse (t ++ "\n" ++ s) = .ok document) ∧
      ∀ document swapped, parse (s ++ "\n" ++ t) = .ok document →
        parse (t ++ "\n" ++ s) = .ok swapped →
          document.schema = Block.schema blocks ++ Block.schema others ∧
          swapped.schema = Block.schema others ++ Block.schema blocks) ∧
    (¬ (Block.names blocks).Disjoint (Block.names others) →
      (∃ name first line, parse (s ++ "\n" ++ t) = .error (.redeclared name first line)) ∧
      ∃ name first line, parse (t ++ "\n" ++ s) = .error (.redeclared name first line)) := by
  constructor
  · intro hdisjoint
    refine ⟨?_, ?_, ?_⟩
    · rcases readBlocks_append_cases hs ht with ⟨-, hjoined⟩ | ⟨name, -, -, hname, hname', -⟩
      · exact hjoined
      · exact absurd hname' (hdisjoint hname)
    · rw [exists_parse_append_eq_ok_iff hs ht, exists_parse_append_eq_ok_iff ht hs]
      exact (Schema.reorders_append_comm _ _).violation?_eq_none_iff
    · intro document swapped hdocument hswapped
      exact ⟨schema_of_parse_append_eq_ok hs ht hdocument,
        schema_of_parse_append_eq_ok ht hs hswapped⟩
  · intro hshared
    constructor
    · rcases readBlocks_append_cases hs ht with ⟨hdisjoint, -⟩ | ⟨name, first, line, -, -, herror⟩
      · exact absurd hdisjoint hshared
      · exact ⟨name, first, line, by rw [parse, herror]; rfl⟩
    · rcases readBlocks_append_cases ht hs with ⟨hdisjoint, -⟩ | ⟨name, first, line, -, -, herror⟩
      · exact absurd (List.disjoint_symm hdisjoint) hshared
      · exact ⟨name, first, line, by rw [parse, herror]; rfl⟩

/-- A generalization before or after the entities that it joins. -/
theorem parse_append_comm_of_generalization : ∃ blocks others,
    readBlocks "Generalization A \x7b B \x7d".toList = .ok blocks ∧
    readBlocks "Entity A \x7b +id: n \x7d\nEntity B \x7b \x7d".toList = .ok others ∧
    (Block.names blocks).Disjoint (Block.names others) ∧
    ∃ document, parse ("Entity A \x7b +id: n \x7d\nEntity B \x7b \x7d" ++ "\n" ++
      "Generalization A \x7b B \x7d") = .ok document := by
  have hs : readBlocks "Generalization A \x7b B \x7d".toList =
      .ok [.generalization ⟨"A", 1, [⟨1, "B"⟩], none, none⟩] := by decide +kernel
  have ht : readBlocks "Entity A \x7b +id: n \x7d\nEntity B \x7b \x7d".toList =
      .ok [.entity ⟨"A", 1, [⟨1, ⟨true, ⟨"id", "n", false, false, none⟩, none⟩⟩]⟩,
        .entity ⟨"B", 2, []⟩] := by decide +kernel
  have hdisjoint : (Block.names [.generalization ⟨"A", 1, [⟨1, "B"⟩], none, none⟩]).Disjoint
      (Block.names [.entity ⟨"A", 1, [⟨1, ⟨true, ⟨"id", "n", false, false, none⟩, none⟩⟩]⟩,
        .entity ⟨"B", 2, []⟩]) := by
    intro name hname
    cases hname
  refine ⟨_, _, hs, ht, hdisjoint, ?_⟩
  rw [← ((parse_append_comm hs ht).1 hdisjoint).2.1]
  exact (exists_parse_append_eq_ok_iff hs ht).mpr (by decide +kernel)

end EntityDiagram.Source
