import EntityDiagram.Proofs.Source.FaultLines
import EntityDiagram.Proofs.Source.RenumberedResults
import EntityDiagram.Proofs.Source.Resolution

/-! What a source means lies in its significant lines. Two sources with the same lines, however they
are indented, ended and commented, differ in the numbers of the lines alone, so both are read to the
same schema, or fail with the same error on lines that correspond; and on the way both report the
same categories. -/
namespace EntityDiagram.Source

/-- Numbers of lines count upward. -/
theorem nodup_numbers (number : Nat) (raws : List (List Char)) :
    ((numbered number raws).map (·.number)).Nodup := by
  induction raws generalizing number with
  | nil => exact List.nodup_nil
  | cons raw rest ih =>
    rw [numbered]
    split_ifs
    · rw [List.map_cons, List.nodup_cons]
      refine ⟨?_, ih (number + 1)⟩
      intro hmem
      obtain ⟨line, hline, hnumber⟩ := List.mem_map.mp hmem
      obtain ⟨index, _, -, rfl, -⟩ := exists_getElem?_of_mem_numbered hline
      simp only at hnumber
      omega
    · exact ih (number + 1)

/-- Lines with the same texts are the same lines under other numbers. -/
theorem exists_eq_map_renumber {lines others : List Line} (hnumbers : (lines.map (·.number)).Nodup)
    (htexts : lines.map (·.text) = others.map (·.text)) :
    ∃ f, others = lines.map (·.renumber f) := by
  induction lines generalizing others with
  | nil => exact ⟨id, List.map_eq_nil_iff.mp htexts.symm⟩
  | cons line rest ih =>
    cases others with
    | nil => contradiction
    | cons other more =>
      rw [List.map_cons, List.nodup_cons] at hnumbers
      obtain ⟨(htext : line.text = other.text), hrest⟩ := List.cons.inj htexts
      obtain ⟨f, rfl⟩ := ih hnumbers.2 hrest
      refine ⟨Function.update f line.number other.number, ?_⟩
      rw [List.map_cons]
      congr 1
      · rw [Line.renumber, Function.update_self, htext]
      · apply List.map_congr_left
        intro later hlater
        have hne : later.number ≠ line.number := by
          intro heq
          exact hnumbers.1 (heq ▸ List.mem_map_of_mem hlater)
        rw [Line.renumber, Line.renumber, Function.update_of_ne hne]

/-- Two numbers that count the same significant line of two sources. -/
def SameLine (s t : String) (m n : Nat) : Prop :=
  ∃ (index : Nat) (line other : Line), (significantLines s.toList)[index]? = some line ∧
    (significantLines t.toList)[index]? = some other ∧ line.number = m ∧ other.number = n

/-- Errors of one kind about the same text, on lines that correspond. -/
inductive SourceError.Alike (R : Nat → Nat → Prop) : SourceError → SourceError → Prop
  | malformed {cause : Malformation} {near : List Char} {m n : Nat} (line : R m n) :
    Alike R (malformed ⟨cause, m, near⟩) (malformed ⟨cause, n, near⟩)
  | redeclared {name : String} {first earliest m n : Nat} (earlier : R first earliest)
    (line : R m n) : Alike R (redeclared name first m) (redeclared name earliest n)
  | invalid {violation : Violation} {m n : Nat} (line : R m n) :
    Alike R (invalid violation (some m)) (invalid violation (some n))

/-- Reports of the same category of the same generalization, on lines that correspond. -/
structure DuplicateCategory.Alike (R : Nat → Nat → Prop) (d e : DuplicateCategory) : Prop where
  category : d.category = e.category
  generic : d.generic = e.generic
  line : R d.line e.line

section

variable {s t : String} {f : Nat → Nat}
  (hlines : significantLines t.toList = (significantLines s.toList).map (·.renumber f))

include hlines

/-- A number that stays as it is wherever the numbers of all lines stay is the number of a line. -/
theorem sameLine_of_fixed {n : Nat} (h : ∀ g : Nat → Nat,
    significantLines s.toList = (significantLines s.toList).map (·.renumber g) → g n = n) :
    SameLine s t n (f n) := by
  have hmem : n ∈ (significantLines s.toList).map (·.number) := by
    by_contra hmem
    have hfixed := h (Function.update id n (n + 1)) (by
      rw [eq_comm, List.map_congr_left (g := id), List.map_id]
      intro line hline
      have hne : line.number ≠ n := fun heq => hmem (heq ▸ List.mem_map_of_mem hline)
      rw [Line.renumber, Function.update_of_ne hne]
      rfl)
    rw [Function.update_self] at hfixed
    omega
  obtain ⟨line, hline, rfl⟩ := List.mem_map.mp hmem
  obtain ⟨index, hindex⟩ := List.mem_iff_getElem?.mp hline
  exact ⟨index, line, line.renumber f, hindex, by rw [hlines, List.getElem?_map, hindex]; rfl,
    rfl, rfl⟩

theorem SourceError.alike_renumber {error : SourceError} (h : parse s = .error error) :
    error.Alike (SameLine s t) (error.renumber f) := by
  have hfixed : ∀ g : Nat → Nat,
      significantLines s.toList = (significantLines s.toList).map (·.renumber g) →
        error.renumber g = error := by
    intro g hg
    have hsame := parse_renumber g hg
    rw [h] at hsame
    exact (Except.error.inj hsame).symm
  obtain ⟨number, hnumber, -, -⟩ := standsOn_of_parse_eq_error h
  cases error with
  | malformed fault =>
    refine .malformed (sameLine_of_fixed hlines ?_)
    intro g hg
    exact congrArg Malformed.line (SourceError.malformed.inj (hfixed g hg))
  | redeclared name first line =>
    refine .redeclared (sameLine_of_fixed hlines ?_) (sameLine_of_fixed hlines ?_)
    · intro g hg
      exact (SourceError.redeclared.inj (hfixed g hg)).2.1
    · intro g hg
      exact (SourceError.redeclared.inj (hfixed g hg)).2.2
  | invalid violation line =>
    obtain rfl : line = some number := hnumber
    refine .invalid (sameLine_of_fixed hlines ?_)
    intro g hg
    exact Option.some.inj (SourceError.invalid.inj (hfixed g hg)).2

theorem DuplicateCategory.alike_renumber {d : DuplicateCategory} (h : d ∈ reported s) :
    d.Alike (SameLine s t) (d.renumber f) := by
  refine ⟨rfl, rfl, sameLine_of_fixed hlines ?_⟩
  intro g hg
  have hsame := reported_renumber g hg
  have hfixed := List.map_inj_left.mp (hsame.symm.trans (List.map_id _).symm) d h
  exact congrArg DuplicateCategory.line hfixed

end

theorem Context.blocksRead_of_scan {context : Context} {lines : List Line} {blocks : List Block}
    (h : context.scan lines = ⟨blocks, none⟩) : context.blocksRead lines = blocks := by
  induction lines generalizing context blocks with
  | nil => exact (Scan.mk.inj h).1
  | cons line rest ih =>
    rw [scan] at h
    rw [blocksRead]
    cases hstep : (context.step line).next with
    | error fault =>
      rw [hstep] at h
      cases h
    | ok next =>
      simp only [hstep, Scan.mk.injEq] at h ⊢
      have hrest : next.scan rest = ⟨(next.scan rest).blocks, none⟩ := by rw [← h.2]
      rw [ih hrest, h.1]

theorem repeatError?_cons (earlier : List EntityBlock) (b : EntityBlock)
    (rest : List EntityBlock) : repeatError? earlier (b :: rest) =
      (repeatError? earlier [b]).or (repeatError? (b :: earlier) rest) := by
  rw [repeatError?, repeatError?]
  cases earlier.find? (·.name = b.name) with
  | some first => rfl
  | none => cases repeatedDeclaration? [] b.declarations <;> rfl

theorem beforeRepeat_of_repeatError? {earlier : List EntityBlock} {blocks : List Block}
    (h : repeatError? earlier (blocks.filterMap Block.entity?) = none) :
    beforeRepeat earlier blocks = blocks := by
  induction blocks generalizing earlier with
  | nil => rfl
  | cons block rest ih =>
    cases block with
    | generalization b => rw [beforeRepeat, ih h]
    | entity b =>
      change repeatError? earlier (b :: rest.filterMap Block.entity?) = none at h
      rw [repeatError?_cons, Option.or_eq_none_iff] at h
      rw [beforeRepeat, h.1, ih h.2]

/-- A source that is accepted has reported all categories that its blocks list again. -/
theorem reported_of_parse_eq_ok {source : String} {document : Document}
    (h : parse source = .ok document) : reported source = document.duplicates := by
  obtain ⟨blocks, hscan, hvalid, rfl⟩ := (parse_eq_ok_iff _ _).mp h
  have names := ((Block.schema blocks).violation?_eq_none_iff.mp hvalid).1
  rw [reported, Context.blocksRead_of_scan hscan,
    beforeRepeat_of_repeatError? ((repeatError?_eq_none_iff_hasDistinctNames blocks).mpr names)]

/-- Two sources with the same significant lines are both accepted, with the same schema, or both
refused, with the same error on lines that correspond. In either case both report the same
categories, in the same order and on lines that correspond, and an accepted source has reported all
its duplicates. -/
theorem parse_reads_significant_lines {s t : String}
    (h : (significantLines s.toList).map (·.text) = (significantLines t.toList).map (·.text)) :
    ((∃ document other, parse s = .ok document ∧ parse t = .ok other ∧
        document.schema = other.schema ∧
        reported s = document.duplicates ∧ reported t = other.duplicates) ∨
      ∃ error other, parse s = .error error ∧ parse t = .error other ∧
        error.Alike (SameLine s t) other) ∧
    List.Forall₂ (DuplicateCategory.Alike (SameLine s t)) (reported s) (reported t) := by
  obtain ⟨f, hlines⟩ := exists_eq_map_renumber (nodup_numbers 1 _) h
  have hparse := parse_renumber f hlines
  constructor
  · cases hs : parse s with
    | ok document =>
      rw [hs] at hparse
      exact .inl ⟨document, _, rfl, hparse, rfl, reported_of_parse_eq_ok hs,
        reported_of_parse_eq_ok hparse⟩
    | error error =>
      rw [hs] at hparse
      exact .inr ⟨error, _, rfl, hparse, SourceError.alike_renumber hlines hs⟩
  · rw [reported_renumber f hlines, List.forall₂_map_right_iff, List.forall₂_same]
    intro d hd
    exact DuplicateCategory.alike_renumber hlines hd

/-- A category listed twice, and an entity that is not closed: on lines 1 and 2 of one source, 2 and
5 of the other. -/
theorem parse_reads_significant_lines_of_comments :
    let s := "Generalization P \x7b A, A \x7d\nEntity A \x7b"
    let t :=
      "# the kinds\r\n  Generalization P \x7b A, A \x7d\t\n\r\n" ++
        " // and one of them\n\tEntity A \x7b \n"
    (significantLines s.toList).map (·.text) = (significantLines t.toList).map (·.text) ∧
      (∃ error other, parse s = .error error ∧ parse t = .error other ∧
        error.Alike (SameLine s t) other) ∧
      ∃ d e, reported s = [d] ∧ reported t = [e] ∧ d.Alike (SameLine s t) e := by
  intro s t
  have htexts : (significantLines s.toList).map (·.text) =
      (significantLines t.toList).map (·.text) := by decide +kernel
  obtain ⟨hread, hreported⟩ := parse_reads_significant_lines htexts
  refine ⟨htexts, ?_, ?_⟩
  · obtain ⟨document, _, hok, -⟩ | herror := hread
    · have hfails : (parse s).isOk = false := by decide +kernel
      rw [hok] at hfails
      contradiction
    · exact herror
  · have hs : reported s = [⟨"A", "P", 1⟩] := by decide +kernel
    have ht : reported t = [⟨"A", "P", 2⟩] := by decide +kernel
    rw [hs, ht, List.forall₂_cons] at hreported
    exact ⟨_, _, hs, ht, hreported.1⟩

end EntityDiagram.Source
