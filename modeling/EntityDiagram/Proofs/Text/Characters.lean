import EntityDiagram.Text.Lines
import EntityDiagram.Text.WordChar
import Mathlib.Data.List.Basic
import Mathlib.Data.List.TakeWhile

/-! Blanks, line ends and words. A line end is blank and a word character is not, so words survive
stripping and stay on their line. -/
namespace EntityDiagram.Text

variable {c : Char} {t u : List Char}

theorem isBlank_of_isLineEnd (h : isLineEnd c = true) : isBlank c = true := by
  simp only [isLineEnd, isBlank, Bool.or_eq_true, Bool.and_eq_true, decide_eq_true_eq,
    beq_iff_eq] at h ⊢
  omega

theorem isLineEnd_eq_false (h : isBlank c = false) : isLineEnd c = false := by
  cases hc : isLineEnd c with
  | false => rfl
  | true => rw [isBlank_of_isLineEnd hc] at h; contradiction

theorem isBlank_eq_false (h : isWordChar c = true) : isBlank c = false := by
  cases hc : isBlank c with
  | false => rfl
  | true => rw [isWordChar_eq_false_of_isBlank hc] at h; contradiction

/-- No line end is in the text. -/
def OnOneLine (t : List Char) : Prop := ∀ c ∈ t, isLineEnd c = false

/-- The first character, if there is one, is not blank. -/
def StartsNonblank (t : List Char) : Prop := ∀ c ∈ t.head?, isBlank c = false

/-- The last character, if there is one, is not blank. -/
def EndsNonblank (t : List Char) : Prop := ∀ c ∈ t.getLast?, isBlank c = false

theorem OnOneLine.subset (h : OnOneLine t) (hu : u ⊆ t) : OnOneLine u := fun c hc => h c (hu hc)

theorem onOneLine_append : OnOneLine (t ++ u) ↔ OnOneLine t ∧ OnOneLine u := by
  simp only [OnOneLine, List.mem_append]
  grind

theorem onOneLine_cons : OnOneLine (c :: t) ↔ isLineEnd c = false ∧ OnOneLine t := by
  simp [OnOneLine]

theorem onOneLine_of_all (h : t.all (!isLineEnd ·) = true) : OnOneLine t := by
  simpa [OnOneLine] using h

theorem startsNonblank_cons : StartsNonblank (c :: t) ↔ isBlank c = false := by
  simp [StartsNonblank]

/-- What holds of the first character of a text. -/
theorem forall_head?_cons {P : Char → Prop} (h : P c) : ∀ d ∈ (c :: t).head?, P d := by
  intro d hd
  cases hd
  exact h

theorem EndsNonblank.suffix (h : EndsNonblank t) (hu : u <:+ t) : EndsNonblank u := by
  obtain ⟨before, rfl⟩ := hu
  intro c hc
  exact h c (by rw [List.getLast?_append, Option.mem_def.mp hc]; rfl)

theorem endsNonblank_append_of_ne_nil (hu : u ≠ []) (h : EndsNonblank u) :
    EndsNonblank (t ++ u) := by
  intro c hc
  rw [List.getLast?_append_of_ne_nil _ hu] at hc
  exact h c hc

theorem endsNonblank_append_singleton : EndsNonblank (t ++ [c]) ↔ isBlank c = false := by
  simp [EndsNonblank]

@[simp] theorem dropBlanks_suffix (t : List Char) : dropBlanks t <:+ t := List.dropWhile_suffix _

theorem dropBlanks_eq_self (h : StartsNonblank t) : dropBlanks t = t := by
  cases t with
  | nil => rfl
  | cons c rest => simp [dropBlanks, startsNonblank_cons.mp h]

theorem startsNonblank_dropBlanks (t : List Char) : StartsNonblank (dropBlanks t) := by
  intro c hc
  have := List.head?_dropWhile_not isBlank t
  rw [dropBlanks] at hc
  rw [Option.mem_def.mp hc] at this
  simpa using this

theorem prefix_dropLastBlanks (t : List Char) : dropLastBlanks t <+: t := by
  induction t with
  | nil => exact List.prefix_rfl
  | cons c rest ih =>
    rw [dropLastBlanks]
    split
    · split_ifs
      · exact List.nil_prefix
      · simp
    · exact (List.prefix_cons_inj c).mpr ih

theorem endsNonblank_dropLastBlanks (t : List Char) : EndsNonblank (dropLastBlanks t) := by
  induction t with
  | nil => intro c hc; contradiction
  | cons c rest ih =>
    rw [dropLastBlanks]
    split
    · split_ifs with hc
      · intro c hc; contradiction
      · simpa [EndsNonblank] using hc
    · rename_i hkept
      rw [← List.singleton_append]
      exact endsNonblank_append_of_ne_nil hkept ih

theorem dropLastBlanks_eq_self (h : EndsNonblank t) : dropLastBlanks t = t := by
  induction t with
  | nil => rfl
  | cons c rest ih =>
    have hrest := ih (h.suffix (List.suffix_cons c rest))
    rw [dropLastBlanks, hrest]
    cases rest with
    | nil =>
      have : isBlank c = false := h c rfl
      simp [this]
    | cons d rest => rfl

theorem strip_eq_self (hs : StartsNonblank t) (he : EndsNonblank t) : strip t = t := by
  rw [strip, dropBlanks_eq_self hs, dropLastBlanks_eq_self he]

theorem endsNonblank_strip (t : List Char) : EndsNonblank (strip t) :=
  endsNonblank_dropLastBlanks _

theorem StartsNonblank.front (h : StartsNonblank t) (hu : u <+: t) : StartsNonblank u := by
  obtain ⟨after, rfl⟩ := hu
  intro c hc
  exact h c (by rw [List.head?_append, Option.mem_def.mp hc]; rfl)

theorem startsNonblank_strip (t : List Char) : StartsNonblank (strip t) :=
  (startsNonblank_dropBlanks t).front (prefix_dropLastBlanks _)

/-- Text that starts with a character that is not blank has a first word. -/
theorem firstRun_ne_nil (ht : t ≠ []) (h : StartsNonblank t) : firstRun t ≠ [] := by
  cases t with
  | nil => contradiction
  | cons c rest => simp [firstRun, startsNonblank_cons.mp h]

theorem strip_subset (t : List Char) : strip t ⊆ t :=
  List.Subset.trans (prefix_dropLastBlanks _).subset (dropBlanks_suffix t).subset

theorem isName_iff : isName t = true ↔ t ≠ [] ∧ ∀ c ∈ t, isWordChar c = true := by
  simp [isName]

theorem isName.onOneLine (h : isName t = true) : OnOneLine t :=
  fun c hc => isLineEnd_eq_false (isBlank_eq_false ((isName_iff.mp h).2 c hc))

theorem isName.startsNonblank (h : isName t = true) : StartsNonblank t :=
  fun c hc => isBlank_eq_false ((isName_iff.mp h).2 c (List.mem_of_mem_head? hc))

theorem isName.startsNonblank_append (h : isName t = true) (u : List Char) :
    StartsNonblank (t ++ u) := by
  intro c hc
  rw [List.head?_append_of_ne_nil _ (isName_iff.mp h).1] at hc
  exact isName.startsNonblank h c hc

theorem isName.endsNonblank (h : isName t = true) : EndsNonblank t :=
  fun c hc => isBlank_eq_false ((isName_iff.mp h).2 c (List.mem_of_mem_getLast? hc))

/-- A word ends where no word character follows. -/
theorem word_append (ht : ∀ c ∈ t, isWordChar c = true)
    (hu : ∀ c ∈ u.head?, isWordChar c = false) : word (t ++ u) = t := by
  rw [word, List.takeWhile_append_of_pos ht]
  cases u with
  | nil => simp
  | cons c rest => simp [hu c rfl]

theorem afterWord_append (ht : ∀ c ∈ t, isWordChar c = true)
    (hu : ∀ c ∈ u.head?, isWordChar c = false) : afterWord (t ++ u) = u := by
  rw [afterWord, List.dropWhile_append_of_pos ht]
  cases u with
  | nil => rfl
  | cons c rest => simp [hu c rfl]

theorem all_isWordChar_word (t : List Char) : ∀ c ∈ word t, isWordChar c = true :=
  fun _ hc => List.mem_takeWhile_imp hc

/-- Lines hold no line ends. -/
theorem onOneLine_of_mem_lines {l : List Char} (h : l ∈ lines t) : OnOneLine l := by
  induction t using lines.induct generalizing l with
  | case1 => contradiction
  | case2 rest ih =>
    rw [lines] at h
    rcases List.mem_cons.mp h with rfl | h
    · intro c hc
      contradiction
    · exact ih h
  | case3 c rest hend hc ih =>
    rw [lines.eq_3 c rest hend, if_pos hc] at h
    rcases List.mem_cons.mp h with rfl | h
    · intro c hc
      contradiction
    · exact ih h
  | case4 c rest hend hc hnone ih =>
    rw [lines.eq_3 c rest hend, if_neg hc, hnone, List.mem_singleton] at h
    simpa [h, OnOneLine] using hc
  | case5 c rest hend hc line others hlines ih =>
    rw [lines.eq_3 c rest hend, if_neg hc, hlines] at h
    rcases List.mem_cons.mp h with rfl | h
    · have hline := ih (l := line) (by simp [hlines])
      intro d hd
      rcases List.mem_cons.mp hd with rfl | hd
      · simpa using hc
      · exact hline d hd
    · exact ih (by simp [hlines, h])

theorem lines_append_newline (h : OnOneLine t) (rest : List Char) :
    lines (t ++ '\n' :: rest) = t :: lines rest := by
  induction t with
  | nil =>
    rw [List.nil_append, lines.eq_3 _ _ (by simp)]
    rfl
  | cons c t ih =>
    have hc : isLineEnd c = false := h c List.mem_cons_self
    have hreturn : c ≠ '\r' := by
      rintro rfl
      contradiction
    have ht := ih fun d hd => h d (List.mem_cons_of_mem _ hd)
    rw [List.cons_append, lines.eq_3 _ _ (by simp [hreturn]), ht]
    simp [hc]

/-- Lines that are written one after the other, each with an end, are read as they are. -/
theorem lines_flatMap_newline {ls : List (List Char)} (h : ∀ l ∈ ls, OnOneLine l) :
    lines (ls.flatMap (· ++ ['\n'])) = ls := by
  induction ls with
  | nil => rfl
  | cons l rest ih =>
    have hrest := ih fun l hl => h l (List.mem_cons_of_mem _ hl)
    rw [List.flatMap_cons, List.append_assoc, List.singleton_append,
      lines_append_newline (h l List.mem_cons_self), hrest]

/-- A line end that no line feed makes longer. -/
theorem lines_cons_of_isLineEnd {c : Char} (hc : isLineEnd c = true)
    (h : c = '\r' → t.head? ≠ some '\n') : lines (c :: t) = [] :: lines t := by
  rw [lines.eq_3, if_pos hc]
  rintro rest rfl rfl
  exact h rfl rfl

theorem lines_newline_cons (t : List Char) : lines ('\n' :: t) = [] :: lines t :=
  lines_cons_of_isLineEnd rfl (by simp)

theorem lines_cons_of_not_isLineEnd {c : Char} (hc : ¬ isLineEnd c = true) :
    lines (c :: t) = match lines t with
      | [] => [[c]]
      | line :: others => (c :: line) :: others := by
  have hreturn : ∀ rest, c = '\r' → t = '\n' :: rest → False := by
    rintro rest rfl -
    exact hc rfl
  have hstep := lines.eq_3 c t hreturn
  rw [if_neg hc] at hstep
  exact hstep

theorem lines_ne_nil (h : t ≠ []) : lines t ≠ [] := by
  cases t using lines.induct with
  | case1 => contradiction
  | case2 rest => simp [lines]
  | case3 c rest hend hc => simp [lines.eq_3 c rest hend, hc]
  | case4 c rest hend hc hnone => simp [lines_cons_of_not_isLineEnd hc, hnone]
  | case5 c rest hend hc line others hlines => simp [lines_cons_of_not_isLineEnd hc, hlines]

/-- A line feed after a text ends its last line or makes an empty one, whatever follows. -/
theorem exists_lines_append_newline (t : List Char) : ∃ last : List (List Char),
    (∀ line ∈ last, line = []) ∧
      ∀ rest, lines (t ++ '\n' :: rest) = lines t ++ last ++ lines rest := by
  induction t using lines.induct with
  | case1 => exact ⟨[[]], by simp, by simp [lines_newline_cons]⟩
  | case2 t ih =>
    obtain ⟨last, hlast, hrest⟩ := ih
    exact ⟨last, hlast, by simp [lines, hrest]⟩
  | case3 c t hend hc ih =>
    by_cases ht : t = []
    · subst ht
      by_cases hreturn : c = '\r'
      · subst hreturn
        exact ⟨[], by simp, by simp [lines, isLineEnd]⟩
      · refine ⟨[[]], by simp, ?_⟩
        intro rest
        have hone : ∀ u : List Char, lines (c :: u) = [] :: lines u :=
          fun u => lines_cons_of_isLineEnd hc fun h => absurd h hreturn
        simp [hone, lines_newline_cons]
    · obtain ⟨last, hlast, hrest⟩ := ih
      obtain ⟨d, u, rfl⟩ := List.exists_cons_of_ne_nil ht
      have hlonger : ∀ v : List Char, lines (c :: d :: v) = [] :: lines (d :: v) := by
        intro v
        apply lines_cons_of_isLineEnd hc
        rintro hreturn hd
        exact hend u hreturn (by rw [Option.some.inj hd])
      refine ⟨last, hlast, ?_⟩
      intro rest
      rw [hlonger u, List.cons_append, List.cons_append, hlonger, ← List.cons_append, hrest]
      rfl
  | case4 c t hend hc hnone ih =>
    have ht : t = [] := by
      by_contra ht
      exact lines_ne_nil ht hnone
    subst ht
    refine ⟨[], by simp, ?_⟩
    intro rest
    simp [lines_cons_of_not_isLineEnd hc, lines_newline_cons]
  | case5 c t hend hc line others hlines ih =>
    obtain ⟨last, hlast, hrest⟩ := ih
    refine ⟨last, hlast, ?_⟩
    intro rest
    simp [lines_cons_of_not_isLineEnd hc, hrest, hlines]

end EntityDiagram.Text
