import EntityDiagram.Proofs.Source.Concatenation
import EntityDiagram.Proofs.Source.FreeText
import EntityDiagram.Proofs.Source.RenumberedResults

/-! A block among other lines. Of every line the trimmed text counts, and of a source the trimmed
lines that are neither blank nor comments; their numbers are set to zero where two sources are
compared. A block begins with a keyword, blanks and a name, whatever follows on the line. -/
namespace EntityDiagram.Source

open Text

theorem dropLastBlanks_blankRun {gap : List Char} (h : IsBlankRun gap) :
    dropLastBlanks gap = [] := by
  induction gap with
  | nil => rfl
  | cons c gap ih =>
    obtain ⟨hc, hgap⟩ := List.forall_mem_cons.mp h
    rw [dropLastBlanks, ih hgap]
    exact if_pos hc

theorem dropLastBlanks_append_blankRun {t gap : List Char} (ht : EndsNonblank t)
    (hgap : IsBlankRun gap) : dropLastBlanks (t ++ gap) = t := by
  induction t with
  | nil => exact dropLastBlanks_blankRun hgap
  | cons c t ih =>
    rw [List.cons_append, dropLastBlanks, ih (ht.suffix (List.suffix_cons c t))]
    cases t with
    | nil =>
      have hc : isBlank c = false := ht c rfl
      simp [hc]
    | cons d t => rfl

theorem exists_dropLastBlanks (t : List Char) :
    ∃ gap, IsBlankRun gap ∧ t = dropLastBlanks t ++ gap := by
  induction t with
  | nil => exact ⟨[], isBlankRun_nil, rfl⟩
  | cons c t ih =>
    obtain ⟨gap, hgap, ht⟩ := ih
    rw [dropLastBlanks]
    split
    · rename_i hnil
      rw [hnil, List.nil_append] at ht
      split_ifs with hc
      · exact ⟨c :: t, List.forall_mem_cons.mpr ⟨hc, ht ▸ hgap⟩, rfl⟩
      · exact ⟨t, ht ▸ hgap, rfl⟩
    · exact ⟨gap, hgap, congrArg (c :: ·) ht⟩

theorem strip_dropLastBlanks (t : List Char) : strip (dropLastBlanks t) = strip t := by
  obtain ⟨gap, hgap, ht⟩ := exists_dropLastBlanks t
  have hends := endsNonblank_dropLastBlanks t
  generalize dropLastBlanks t = kept at ht hends
  subst ht
  by_cases hnil : dropBlanks kept = []
  · obtain rfl := eq_nil_of_dropBlanks_eq_nil hends hnil
    have hdrop : dropBlanks gap = [] := List.dropWhile_eq_nil_iff.mpr hgap
    rw [List.nil_append, strip, strip, hdrop]
    rfl
  · have hsuffix := hends.suffix (dropBlanks_suffix kept)
    rw [strip, strip, dropBlanks_append hnil, dropLastBlanks_append_blankRun hsuffix hgap,
      dropLastBlanks_eq_self hsuffix]

/-- The trimmed lines that are neither blank nor comments. -/
def trimmed (raws : List (List Char)) : List (List Char) :=
  (raws.map strip).filter isSignificant

theorem trimmed_append (raws others : List (List Char)) :
    trimmed (raws ++ others) = trimmed raws ++ trimmed others := by
  simp [trimmed]

theorem map_text_numbered (number : Nat) (raws : List (List Char)) :
    (numbered number raws).map (·.text) = trimmed raws := by
  induction raws generalizing number with
  | nil => rfl
  | cons raw rest ih =>
    rw [numbered, trimmed, List.map_cons, List.filter_cons]
    split_ifs with hsignificant
    · rw [List.map_cons, ih]
      rfl
    · exact ih (number + 1)

theorem trimmed_parts {raws : List (List Char)} {row : List Char} (h : row ∈ trimmed raws) :
    StartsNonblank row ∧ EndsNonblank row := by
  obtain ⟨hrow, -⟩ := List.mem_filter.mp h
  obtain ⟨raw, -, rfl⟩ := List.mem_map.mp hrow
  exact ⟨startsNonblank_strip raw, endsNonblank_strip raw⟩

/-- Lines without their numbers. -/
def unnumbered (rows : List (List Char)) : List Line := rows.map (Line.mk 0)

theorem map_renumber_numbered (number : Nat) (raws : List (List Char)) :
    (numbered number raws).map (·.renumber fun _ => 0) = unnumbered (trimmed raws) := by
  rw [← map_text_numbered number raws, unnumbered, List.map_map]
  rfl

/-- What becomes of the blocks that were scanned. -/
def Scan.result (scan : Scan) : Except SourceError Document :=
  match repeatError? [] (scan.blocks.filterMap Block.entity?), scan.malformed? with
  | some repeated, _ => .error repeated
  | none, some fault => .error (.malformed fault)
  | none, none => resolve scan.blocks

theorem parse_eq_result (source : String) :
    parse source = (Context.outside.scan (significantLines source.toList)).result := by
  simp only [parse, readBlocks, Scan.result]
  generalize Context.outside.scan (significantLines source.toList) = scan
  cases repeatError? [] (scan.blocks.filterMap Block.entity?) with
  | some repeated => rfl
  | none => cases scan.malformed? <;> rfl

theorem Scan.result_renumber (f : Nat → Nat) (scan : Scan) :
    (scan.renumber f).result = renumberResult f (·.renumber f) scan.result := by
  have hrepeat := repeatError?_renumber f [] (scan.blocks.filterMap Block.entity?)
  rw [List.map_nil, ← Block.filterMap_entity?_renumber] at hrepeat
  simp only [result, renumber, hrepeat]
  cases repeatError? [] (scan.blocks.filterMap Block.entity?) with
  | some error => rfl
  | none =>
    cases scan.malformed? with
    | some fault => rfl
    | none => exact resolve_renumber f scan.blocks

/-- What a source is read to, but for the numbers of its lines. -/
theorem renumberResult_parse (source : String) :
    renumberResult (fun _ => 0) (·.renumber fun _ => 0) (parse source) =
      (Context.outside.scan (unnumbered (trimmed (lines source.toList)))).result := by
  have hscan := Context.scan_renumber (fun _ => 0) .outside (significantLines source.toList)
  rw [significantLines, map_renumber_numbered] at hscan
  rw [parse_eq_result, ← Scan.result_renumber, significantLines, ← hscan]
  rfl

/-- Errors that differ in numbers of lines alone are errors of one kind about the same text. -/
theorem SourceError.near_eq_of_renumber {error other : SourceError} {f g : Nat → Nat}
    (h : error.renumber f = other.renumber g) : error.near = other.near := by
  cases error <;> cases other <;> simp_all [renumber, near, Malformed.renumber]

/-- Lines that go on alike go on alike after the same lines. -/
theorem Context.scan_append_congr {lines others : List Line}
    (h : ∀ c : Context, c.scan lines = c.scan others) (c : Context) (before : List Line) :
    c.scan (before ++ lines) = c.scan (before ++ others) := by
  induction before generalizing c with
  | nil => exact h c
  | cons line rest ih =>
    rw [List.cons_append, List.cons_append, scan, scan]
    cases (c.step line).next with
    | error fault => rfl
    | ok next => simp only [ih next]

/-- Lines after others are reached, unless the others are malformed. -/
theorem Context.exists_scan_of_append (c : Context) (before lines : List Line)
    (h : (c.scan (before ++ lines)).malformed? = none) :
    ∃ reached : Context, (reached.scan lines).malformed? = none ∧
      (reached.scan lines).blocks ⊆ (c.scan (before ++ lines)).blocks := by
  induction before generalizing c with
  | nil => exact ⟨c, h, List.Subset.refl _⟩
  | cons line rest ih =>
    rw [List.cons_append, scan] at h ⊢
    cases hnext : (c.step line).next with
    | error fault =>
      rw [hnext] at h
      contradiction
    | ok next =>
      simp only [hnext] at h ⊢
      obtain ⟨reached, hreached, hblocks⟩ := ih next h
      exact ⟨reached, hreached, List.Subset.trans hblocks (List.subset_append_right _ _)⟩

theorem firstRun_append {w : List Char} (hw : isName w = true) (u : List Char) :
    firstRun (w ++ u) = w ++ firstRun u := by
  have hblank : ∀ c ∈ w, (!isBlank c) = true := by
    intro c hc
    rw [isBlank_eq_false ((isName_iff.mp hw).2 c hc)]
    rfl
  exact List.takeWhile_append_of_pos hblank

/-- A keyword, blanks and a name. -/
inductive Heading (keyword name : List Char) : List Char → Prop
  | heading {gap} (ne_nil : gap ≠ []) (blank : IsBlankRun gap) (name_isName : isName name = true) :
    Heading keyword name (keyword ++ (gap ++ name))

namespace Heading

variable {keyword name front rest : List Char}

theorem header?_eq (h : Heading keyword name front)
    (hrest : ∀ c ∈ rest.head?, isWordChar c = false) :
    header? keyword (front ++ rest) = some (name, rest) := by
  cases h with
  | @heading gap ne_nil blank name_isName =>
    have hkeyword : keyword.isPrefixOf? (keyword ++ (gap ++ (name ++ rest))) =
        some (gap ++ (name ++ rest)) := List.isPrefixOf?_eq_some_iff_append_eq.mpr rfl
    have hblanks : afterBlanks? (gap ++ (name ++ rest)) = some (name ++ rest) :=
      afterBlanks?_append blank ne_nil (isName.startsNonblank_append name_isName rest)
    have hname := name?_eq_some_iff.mpr ⟨name_isName, rfl, hrest⟩
    rw [List.append_assoc, List.append_assoc]
    simp only [header?, hkeyword, hblanks, hname, Option.bind_eq_bind, Option.bind_some]

theorem beginsWith_eq (h : Heading keyword name front) (rest : List Char) :
    beginsWith keyword (front ++ rest) = true := by
  cases h with
  | @heading gap ne_nil blank name_isName =>
    obtain ⟨b, gap, rfl⟩ := List.exists_cons_of_ne_nil ne_nil
    have hkeyword : keyword.isPrefixOf? (keyword ++ (b :: gap ++ name) ++ rest) =
        some (b :: (gap ++ name ++ rest)) :=
      List.isPrefixOf?_eq_some_iff_append_eq.mpr (by simp)
    rw [beginsWith, hkeyword]
    simpa using isWordChar_eq_false_of_isBlank (blank b List.mem_cons_self)

theorem firstRun_eq (h : Heading keyword name front) (hkeyword : isName keyword = true)
    (rest : List Char) : firstRun (front ++ rest) = keyword := by
  cases h with
  | @heading gap ne_nil blank name_isName =>
    obtain ⟨b, gap, rfl⟩ := List.exists_cons_of_ne_nil ne_nil
    rw [List.append_assoc, firstRun_append hkeyword]
    simp [firstRun, blank b List.mem_cons_self]

end Heading

end EntityDiagram.Source
