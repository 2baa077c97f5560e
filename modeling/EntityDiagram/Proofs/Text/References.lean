import EntityDiagram.Text.Markup
import Mathlib.Data.List.Infix

/-! References in escaped text. Escaping leaves no reserved character but the ampersands that begin
references, one pass over the references gives the text back, and the five replacements that
escaping stands for may be made one after the other, ampersands first. -/
namespace EntityDiagram.Text

/-- The reserved characters and what stands for them, in the order of replacement. -/
def references : List (Char × List Char) := [
  ('&', ['&', 'a', 'm', 'p', ';']), ('<', ['&', 'l', 't', ';']), ('>', ['&', 'g', 't', ';']),
  ('"', ['&', 'q', 'u', 'o', 't', ';']), ('\'', ['&', '#', '3', '9', ';'])]

/-- Puts a reference in the place of a character, wherever it stands. -/
def replaceChar (r : Char × List Char) (text : List Char) : List Char :=
  text.flatMap fun c => if c = r.1 then r.2 else [c]

/-- Replaces the reserved characters one after the other, each in the whole text. -/
def replaceReserved (text : List Char) : List Char :=
  references.foldl (fun text r => replaceChar r text) text

/-- Replaces references by their characters in one pass from left to right. -/
def unescape : List Char → List Char
  | [] => []
  | '&' :: 'a' :: 'm' :: 'p' :: ';' :: rest => '&' :: unescape rest
  | '&' :: 'l' :: 't' :: ';' :: rest => '<' :: unescape rest
  | '&' :: 'g' :: 't' :: ';' :: rest => '>' :: unescape rest
  | '&' :: 'q' :: 'u' :: 'o' :: 't' :: ';' :: rest => '"' :: unescape rest
  | '&' :: '#' :: '3' :: '9' :: ';' :: rest => '\'' :: unescape rest
  | c :: rest => c :: unescape rest

/-- The characters that escaping replaces. -/
def reserved : List Char := references.map (·.1)

/-- Text that ends no element and no quoted value, and in which every ampersand begins one of the
five references. -/
structure IsEscaped (text : List Char) : Prop where
  reservedFree : ∀ c ∈ text, c ∉ ['<', '>', '"', '\'']
  ampersands : ∀ after, '&' :: after <:+ text → ∃ r ∈ references, r.2 <+: '&' :: after

theorem not_mem_reserved_iff {c : Char} :
    c ∉ reserved ↔ c ≠ '&' ∧ c ∉ ['<', '>', '"', '\''] := by
  simp [reserved, references]

/-- A reserved character becomes its reference, and any other stays. -/
theorem escapeChar_cases (c : Char) :
    (∃ r ∈ references, r.1 = c ∧ escapeChar c = r.2) ∨ c ∉ reserved ∧ escapeChar c = [c] := by
  by_cases hc : c ∈ reserved
  · obtain ⟨r, hr, rfl⟩ := List.mem_map.mp hc
    have hall : ∀ r ∈ references, escapeChar r.1 = r.2 := by decide
    exact .inl ⟨r, hr, rfl, hall r hr⟩
  · refine .inr ⟨hc, ?_⟩
    unfold escapeChar
    split <;> simp_all [reserved, references]

theorem unescape_cons {c : Char} (h : c ≠ '&') (rest : List Char) :
    unescape (c :: rest) = c :: unescape rest := by
  rw [unescape.eq_7]
  all_goals
    intros
    contradiction

theorem unescape_append_of_not_mem {t : List Char} (h : '&' ∉ t) (rest : List Char) :
    unescape (t ++ rest) = t ++ unescape rest := by
  induction t with
  | nil => rfl
  | cons c t ih =>
    obtain ⟨hc, ht⟩ := List.ne_and_not_mem_of_not_mem_cons h
    rw [List.cons_append, unescape_cons hc.symm, ih ht, List.cons_append]

theorem unescape_reference_append {r : Char × List Char} (hr : r ∈ references)
    (rest : List Char) : unescape (r.2 ++ rest) = r.1 :: unescape rest := by
  simp only [references, List.mem_cons, List.not_mem_nil, or_false] at hr
  rcases hr with rfl | rfl | rfl | rfl | rfl <;> rfl

theorem unescape_escape (t : List Char) : unescape (escape t) = t := by
  induction t with
  | nil => rfl
  | cons c t ih =>
    have hcons : escape (c :: t) = escapeChar c ++ escape t := rfl
    rw [hcons]
    rcases escapeChar_cases c with ⟨r, hr, rfl, hc⟩ | ⟨hplain, hc⟩
    · rw [hc, unescape_reference_append hr, ih]
    · rw [hc, List.singleton_append, unescape_cons (not_mem_reserved_iff.mp hplain).1, ih]

/-- Behind its first character a reference holds no ampersand. -/
theorem suffix_reference_append {r : Char × List Char} (hr : r ∈ references)
    {after rest : List Char} (h : '&' :: after <:+ r.2 ++ rest) :
    '&' :: after = r.2 ++ rest ∨ '&' :: after <:+ rest := by
  simp only [references, List.mem_cons, List.not_mem_nil, or_false] at hr
  rcases hr with rfl | rfl | rfl | rfl | rfl <;> simpa [List.suffix_cons_iff] using h

theorem IsEscaped.reference_append {t : List Char} (h : IsEscaped t) {r : Char × List Char}
    (hr : r ∈ references) : IsEscaped (r.2 ++ t) := by
  have hfree : ∀ r ∈ references, ∀ c ∈ r.2, c ∉ ['<', '>', '"', '\''] := by
    simp [references]
  refine ⟨?_, ?_⟩
  · intro c hc
    exact (List.mem_append.mp hc).elim (hfree r hr c) (h.reservedFree c)
  · intro after hafter
    rcases suffix_reference_append hr hafter with heq | hafter
    · exact ⟨r, hr, heq ▸ List.prefix_append _ _⟩
    · exact h.ampersands after hafter

theorem IsEscaped.cons {t : List Char} (h : IsEscaped t) {c : Char} (hc : c ∉ reserved) :
    IsEscaped (c :: t) := by
  obtain ⟨hamp, hfree⟩ := not_mem_reserved_iff.mp hc
  refine ⟨List.forall_mem_cons.mpr ⟨hfree, h.reservedFree⟩, ?_⟩
  intro after hafter
  rcases List.suffix_cons_iff.mp hafter with heq | hafter
  · exact absurd (List.cons.inj heq).1.symm hamp
  · exact h.ampersands after hafter

theorem isEscaped_escape (t : List Char) : IsEscaped (escape t) := by
  induction t with
  | nil => exact ⟨by simp, by simp⟩
  | cons c t ih =>
    have hcons : escape (c :: t) = escapeChar c ++ escape t := rfl
    rw [hcons]
    rcases escapeChar_cases c with ⟨r, hr, -, hc⟩ | ⟨hplain, hc⟩
    · rw [hc]
      exact ih.reference_append hr
    · rw [hc]
      exact ih.cons hplain

/-- Replacements act on each character for itself. -/
theorem foldl_replaceChar_flatMap (rs : List (Char × List Char)) (t : List Char)
    (f : Char → List Char) : rs.foldl (fun text r => replaceChar r text) (t.flatMap f) =
      t.flatMap fun c => rs.foldl (fun text r => replaceChar r text) (f c) := by
  induction rs generalizing f with
  | nil => rfl
  | cons r rs ih =>
    have hfirst : replaceChar r (t.flatMap f) = t.flatMap fun c => replaceChar r (f c) :=
      List.flatMap_assoc
    rw [List.foldl_cons, hfirst, ih]
    rfl

theorem foldl_replaceChar_singleton {rs : List (Char × List Char)} {c : Char}
    (hc : c ∉ rs.map (·.1)) : rs.foldl (fun text r => replaceChar r text) [c] = [c] := by
  induction rs with
  | nil => rfl
  | cons r rs ih =>
    obtain ⟨hne, hrest⟩ := List.ne_and_not_mem_of_not_mem_cons hc
    have hfirst : replaceChar r [c] = [c] := by simp [replaceChar, hne]
    rw [List.foldl_cons, hfirst, ih hrest]

/-- Escaping replaces the reserved characters one after the other: no replacement touches what an
earlier one has put in. -/
theorem escape_eq_replaceReserved (t : List Char) : escape t = replaceReserved t := by
  have hone : replaceReserved t = t.flatMap fun c => replaceReserved [c] := by
    have := foldl_replaceChar_flatMap references t fun c => [c]
    rwa [List.flatMap_singleton'] at this
  have hall : ∀ r ∈ references, replaceReserved [r.1] = r.2 := by decide
  rw [hone, escape]
  apply List.flatMap_congr
  intro c _
  rcases escapeChar_cases c with ⟨r, hr, rfl, hc⟩ | ⟨hplain, hc⟩
  · rw [hc, hall r hr]
  · rw [hc, replaceReserved, foldl_replaceChar_singleton hplain]

end EntityDiagram.Text
