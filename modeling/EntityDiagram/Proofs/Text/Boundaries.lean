import EntityDiagram.Proofs.Text.Addresses

/-! Where markup begins in a document, and where a quoted string of a style sheet ends. A `<` always
begins a piece of markup. A quoted string ends at its quote, but a backslash takes what follows it
into an escape, and a line break leaves the string without an end. -/
namespace EntityDiagram.Text

/-- The pieces of markup in a document, each from behind a `<` up to the next `>`. -/
def markup : List Char → List (List Char)
  | [] => []
  | c :: rest => if c = '<' then rest.takeWhile (· ≠ '>') :: markup rest else markup rest

theorem length_markup (t : List Char) : (markup t).length = t.count '<' := by
  induction t with
  | nil => rfl
  | cons c rest ih =>
    by_cases hc : c = '<'
    · rw [markup, if_pos hc, List.length_cons, ih, hc, List.count_cons_self]
    · rw [markup, if_neg hc, ih, List.count_cons_of_ne hc]

theorem markup_append_of_not_mem {t : List Char} (h : '<' ∉ t) (u : List Char) :
    markup (t ++ u) = markup u := by
  induction t with
  | nil => rfl
  | cons c t ih =>
    obtain ⟨hc, ht⟩ := List.ne_and_not_mem_of_not_mem_cons h
    rw [List.cons_append, markup, if_neg hc.symm, ih ht]

theorem markup_append_cons (t u : List Char) :
    markup (t ++ '>' :: u) = markup (t ++ ['>']) ++ markup u := by
  induction t with
  | nil => simp [markup]
  | cons c t ih =>
    by_cases hc : c = '<'
    · have hpiece : (t ++ '>' :: u).takeWhile (· ≠ '>') = (t ++ ['>']).takeWhile (· ≠ '>') := by
        simp [List.takeWhile_append]
      rw [List.cons_append, List.cons_append, markup, markup, if_pos hc, if_pos hc, hpiece, ih,
        List.cons_append]
    · rw [List.cons_append, List.cons_append, markup, markup, if_neg hc, if_neg hc, ih]

/-- Text that ends outside of all markup. -/
def EndsOutside (t : List Char) : Prop := ∃ u v, t = u ++ '>' :: v ∧ '<' ∉ v

/-- What follows does not change the markup before it. -/
theorem EndsOutside.markup_append {t : List Char} (h : EndsOutside t) (u : List Char) :
    markup (t ++ u) = markup t ++ markup u := by
  obtain ⟨before, after, rfl, hafter⟩ := h
  have hnone : markup after = [] := by
    rw [← List.append_nil after, markup_append_of_not_mem hafter]
    rfl
  rw [List.append_assoc, List.cons_append, markup_append_cons, markup_append_cons before after,
    markup_append_of_not_mem hafter, hnone, List.append_nil]

def isLineBreak (c : Char) : Bool := ['\n', '\r', '\x0c'].contains c

/-- Characters that stand for themselves in a quoted string. -/
def isPlain (c : Char) : Bool := !(c == '\'' || c == '\\' || isLineBreak c)

/-- Percent-encoded text stands for itself in a quoted string. -/
theorem isPlain_of_mem_percentEncode {c : Char} {text : List Char}
    (h : c ∈ percentEncode text) : isPlain c = true := by
  by_contra hplain
  rw [Bool.not_eq_true, isPlain, Bool.not_eq_false', Bool.or_eq_true, Bool.or_eq_true,
    beq_iff_eq, beq_iff_eq, isLineBreak, List.contains_iff_mem] at hplain
  revert h
  simp only [List.mem_cons, List.not_mem_nil, or_false] at hplain
  rcases hplain with (rfl | rfl) | rfl | rfl | rfl <;> exact not_mem_percentEncode rfl

/-- The character of an escape. Codes that are no characters stand for the replacement character. -/
def escapedChar (code : Nat) : Char :=
  if 0 < code ∧ code.isValidChar then Char.ofNat code else '\uFFFD'

/-- Where a reader stands in a quoted string: among its characters, behind a backslash, or behind
the hexadecimal digits of an escape. -/
inductive StringPlace where
  | inside
  | escaped
  | code (digits value : Nat)
  deriving DecidableEq, Repr

/-- What is read at the start of a text, given how its rest is read. -/
def quotedStep (c : Char) (rest : List Char)
    (next : StringPlace → Option (List Char × List Char)) : Option (List Char × List Char) :=
  if c = '\'' then some ([], rest)
  else if c = '\\' then next .escaped
  else if isLineBreak c then none
  else (next .inside).map (Prod.map (c :: ·) id)

/-- The value of a quoted string up to its end, and the text behind its quote. An escape is up to
six hexadecimal digits with a blank that ends them, any other character that stands for itself, or a
line break that stands for nothing. -/
def quotedString : List Char → StringPlace → Option (List Char × List Char)
  | [], _ => none
  | c :: rest, .inside => quotedStep c rest (quotedString rest)
  | c :: rest, .escaped =>
    if isLineBreak c then quotedString rest .inside
    else
      match hexValue? c with
      | some digit => quotedString rest (.code 1 digit)
      | none => (quotedString rest .inside).map (Prod.map (c :: ·) id)
  | c :: rest, .code digits value =>
    match if digits < 6 then hexValue? c else none with
    | some digit => quotedString rest (.code (digits + 1) (16 * value + digit))
    | none =>
      (if c = ' ' ∨ c = '\t' ∨ isLineBreak c then quotedString rest .inside
        else quotedStep c rest (quotedString rest)).map (Prod.map (escapedChar value :: ·) id)

example : quotedString ['a', '\\', '4', '1', ' ', '\\', '\'', '\'', ';'] .inside =
    some (['a', 'A', '\''], [';']) := by
  decide

/-- Characters of the value that are read but not complete. -/
def StringPlace.pending : StringPlace → Nat
  | .code _ _ => 1
  | _ => 0

section

variable {c : Char} {t rest v r : List Char}
  {next : StringPlace → Option (List Char × List Char)}

theorem quotedStep_cases (h : quotedStep c rest next = some (v, r)) :
    (c = '\'' ∧ v = [] ∧ r = rest) ∨ next .escaped = some (v, r) ∨
      (isPlain c = true ∧ ∃ w, next .inside = some (w, r) ∧ v = c :: w) := by
  unfold quotedStep at h
  split_ifs at h with hquote hbackslash hbreak
  · cases h
    exact .inl ⟨hquote, rfl, rfl⟩
  · exact .inr (.inl h)
  · obtain ⟨⟨w, r'⟩, hnext, heq⟩ := Option.map_eq_some_iff.mp h
    cases heq
    exact .inr (.inr ⟨by simp [isPlain, *], w, hnext, rfl⟩)

theorem quotedStep_of_isPlain (h : isPlain c = true) :
    quotedStep c rest next = (next .inside).map (Prod.map (c :: ·) id) := by
  simp only [isPlain, Bool.not_eq_true', Bool.or_eq_false_iff, beq_eq_false_iff_ne] at h
  simp [quotedStep, h]

theorem length_le_of_map_cons {read : Option (List Char × List Char)} {n : Nat}
    (hread : ∀ w, read = some (w, r) → w.length + r.length + 1 ≤ n)
    (h : read.map (Prod.map (c :: ·) id) = some (v, r)) : v.length + r.length + 1 ≤ n + 1 := by
  obtain ⟨⟨w, r'⟩, hw, heq⟩ := Option.map_eq_some_iff.mp h
  cases heq
  have := hread w hw
  simp only [List.length_cons]
  omega

theorem length_le_of_quotedStep
    (hnext : ∀ {place v r}, next place = some (v, r) →
      v.length + r.length + 1 ≤ rest.length + place.pending)
    (h : quotedStep c rest next = some (v, r)) : v.length + r.length + 1 ≤ rest.length + 1 := by
  rcases quotedStep_cases h with ⟨-, rfl, rfl⟩ | hescaped | ⟨-, w, hinside, rfl⟩
  · simp
  · exact Nat.le_succ_of_le (hnext hescaped)
  · have := hnext hinside
    simp only [StringPlace.pending, List.length_cons] at this ⊢
    omega

/-- A value is no longer than what it is read from. -/
theorem length_le_of_quotedString {place : StringPlace}
    (h : quotedString t place = some (v, r)) :
    v.length + r.length + 1 ≤ t.length + place.pending := by
  induction t generalizing place v r with
  | nil => contradiction
  | cons c rest ih =>
    cases place with
    | inside => exact length_le_of_quotedStep ih h
    | escaped =>
      rw [quotedString] at h
      split at h
      · exact Nat.le_succ_of_le (ih h)
      · split at h
        · exact ih h
        · refine length_le_of_map_cons ?_ h
          intro w hw
          exact ih hw
    | code digits value =>
      rw [quotedString] at h
      split at h
      · exact Nat.le_succ_of_le (ih h)
      · refine length_le_of_map_cons ?_ h
        intro w hw
        split at hw
        · exact Nat.le_succ_of_le (ih hw)
        · exact length_le_of_quotedStep ih hw

theorem eq_of_quotedString_of_length (h : quotedString t .inside = some (v, r))
    (hlength : v.length + r.length + 1 = t.length) :
    t = v ++ '\'' :: r ∧ ∀ c ∈ v, isPlain c = true := by
  induction t generalizing v with
  | nil => contradiction
  | cons c rest ih =>
    rw [List.length_cons] at hlength
    rcases quotedStep_cases h with ⟨rfl, rfl, rfl⟩ | hescaped | ⟨hplain, w, hinside, rfl⟩
    · exact ⟨rfl, by simp⟩
    · have := length_le_of_quotedString hescaped
      simp only [StringPlace.pending] at this
      omega
    · obtain ⟨rfl, hw⟩ := ih hinside (by rw [List.length_cons] at hlength; omega)
      exact ⟨rfl, List.forall_mem_cons.mpr ⟨hplain, hw⟩⟩

/-- A text is the value of the string that it is quoted in exactly when all its characters are
plain. -/
theorem quotedString_eq_iff {text after : List Char} :
    quotedString (text ++ '\'' :: after) .inside = some (text, after) ↔
      ∀ c ∈ text, isPlain c = true := by
  constructor
  · intro h
    exact (eq_of_quotedString_of_length h (by simp [Nat.add_assoc])).2
  · intro h
    induction text with
    | nil => rfl
    | cons c text ih =>
      obtain ⟨hc, htext⟩ := List.forall_mem_cons.mp h
      rw [List.cons_append, quotedString, quotedStep_of_isPlain hc, ih htext]
      rfl

end

end EntityDiagram.Text
