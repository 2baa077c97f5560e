import EntityDiagram.PathData
import EntityDiagram.Proofs.Path.Numeral

/-! The text of a polyline, read back. Its words are commands again, and a pen that follows the
commands is at every point in turn: a coordinate that a command leaves out is one that the pen has,
since the points before and after the step agree in it. -/
namespace EntityDiagram

/-- A point with finite coordinates. -/
def Point.IsFinite {α : Type} [Scalar α] (p : Point α) : Prop :=
  Scalar.isFinite p.x = true ∧ Scalar.isFinite p.y = true

instance {α : Type} [Scalar α] (p : Point α) : Decidable p.IsFinite :=
  inferInstanceAs (Decidable (_ ∧ _))

namespace PathCommand

variable {α β : Type}

def map (f : α → β) : PathCommand α → PathCommand β
  | moveTo x y => moveTo (f x) (f y)
  | horizontal x => horizontal (f x)
  | vertical y => vertical (f y)
  | lineTo x y => lineTo (f x) (f y)

/-- A step that is neither horizontal nor vertical. -/
def isOblique : PathCommand α → Bool
  | lineTo _ _ => true
  | _ => false

/-- Where a command takes a pen. -/
def penAfter (pen : Point α) : PathCommand α → Point α
  | moveTo x y | lineTo x y => ⟨x, y⟩
  | horizontal x => ⟨x, pen.y⟩
  | vertical y => ⟨pen.x, y⟩

/-- Where a pen is after each of some commands. -/
def visits (pen : Point α) : List (PathCommand α) → List (Point α)
  | [] => []
  | c :: rest => c.penAfter pen :: visits (c.penAfter pen) rest

/-- The words of a text, blanks between them. -/
def words (text : List Char) : List (List Char) := (text.splitOn ' ').filter (· ≠ [])

/-- The commands that some words are: a letter and the coordinates that go with it. -/
def ofWords? : List (List Char) → Option (List (PathCommand (List Char)))
  | [] => some []
  | ['M'] :: x :: y :: rest => (ofWords? rest).map (moveTo x y :: ·)
  | ['H'] :: x :: rest => (ofWords? rest).map (horizontal x :: ·)
  | ['V'] :: y :: rest => (ofWords? rest).map (vertical y :: ·)
  | ['L'] :: x :: y :: rest => (ofWords? rest).map (lineTo x y :: ·)
  | _ => none

/-- Reads the text of a polyline. -/
def ofText? (text : String) : Option (List (PathCommand (List Char))) :=
  ofWords? (words text.toList)

theorem words_append_blank (s t : List Char) : words (s ++ ' ' :: t) = words s ++ words t := by
  unfold words
  rw [List.splitOn_eq_splitOnP, List.splitOnP_append_cons s t (by decide), List.filter_append]
  rfl

theorem words_eq_singleton {s : List Char} (hne : s ≠ []) (h : ' ' ∉ s) : words s = [s] := by
  have hnone : ∀ c ∈ s, (c == ' ') = false := by
    intro c hc
    rw [beq_eq_false_iff_ne]
    rintro rfl
    exact h hc
  rw [words, List.splitOn_eq_splitOnP, List.splitOnP_eq_singleton hnone]
  simp [hne]

/-- The words of a command. -/
def wordsOf : PathCommand (List Char) → List (List Char)
  | moveTo x y => [['M'], x, y]
  | horizontal x => [['H'], x]
  | vertical y => [['V'], y]
  | lineTo x y => [['L'], x, y]

theorem ofWords?_flatMap (commands : List (PathCommand (List Char))) :
    ofWords? (commands.flatMap wordsOf) = some commands := by
  induction commands with
  | nil => rfl
  | cons c rest ih => cases c <;> simp [wordsOf, ofWords?, ih]

/-- The coordinates of a command are finite. -/
def IsFinite : PathCommand Number → Prop
  | moveTo x y | lineTo x y => Scalar.isFinite x = true ∧ Scalar.isFinite y = true
  | horizontal a | vertical a => Scalar.isFinite a = true

theorem words_numeral {a : Number} (h : Scalar.isFinite a = true) :
    words a.numeral = [a.numeral] := by
  apply words_eq_singleton (Number.numeral_ne_nil h)
  intro hblank
  exact absurd (Number.isNumeralChar_of_mem_numeral h hblank) (by decide)

/-- The words of texts with blanks between them are those of the texts. -/
theorem words_intercalate (texts : List (List Char)) :
    words ([' '].intercalate texts) = texts.flatMap words := by
  induction texts with
  | nil => rfl
  | cons text rest ih =>
    cases rest with
    | nil => simp
    | cons next others =>
      rw [List.intercalate_cons_cons, List.append_assoc, List.flatMap_cons, ← ih]
      exact words_append_blank _ _

/-- The text of a command is its words with blanks between them. -/
theorem toList_text (c : PathCommand Number) :
    c.text.toList = [' '].intercalate (c.map Number.numeral).wordsOf := by
  cases c <;> simp [text, map, wordsOf, Number.numeral]

theorem words_text {c : PathCommand Number} (h : c.IsFinite) :
    words c.text.toList = (c.map Number.numeral).wordsOf := by
  have hletter (letter : Char) (hne : letter ≠ ' ') : words [letter] = [[letter]] :=
    words_eq_singleton (by simp) (by simpa using hne.symm)
  rw [toList_text, words_intercalate]
  cases c with
  | moveTo x y => simp [map, wordsOf, hletter, words_numeral h.1, words_numeral h.2]
  | horizontal x => simp [map, wordsOf, hletter, words_numeral h]
  | vertical y => simp [map, wordsOf, hletter, words_numeral h]
  | lineTo x y => simp [map, wordsOf, hletter, words_numeral h.1, words_numeral h.2]

theorem isFinite_between (a : Point Number) {b : Point Number} (hb : b.IsFinite) :
    (between a b).IsFinite := by
  unfold between
  split_ifs
  · exact hb.1
  · exact hb.2
  · exact hb

theorem isFinite_of_mem_follow {a : Point Number} {points : List (Point Number)}
    (h : ∀ p ∈ points, p.IsFinite) : ∀ c ∈ follow a points, c.IsFinite := by
  induction points generalizing a with
  | nil => simp [follow]
  | cons b rest ih =>
    rw [List.forall_mem_cons] at h
    rw [follow, List.forall_mem_cons]
    exact ⟨isFinite_between a h.1, ih h.2⟩

theorem isFinite_of_mem_ofPoints {points : List (Point Number)} (h : ∀ p ∈ points, p.IsFinite) :
    ∀ c ∈ ofPoints points, c.IsFinite := by
  cases points with
  | nil => simp [ofPoints]
  | cons a rest =>
    rw [List.forall_mem_cons] at h
    rw [ofPoints, List.forall_mem_cons]
    exact ⟨h.1, isFinite_of_mem_follow h.2⟩

/-- The text of a polyline reads as the commands it was written from. -/
theorem ofText?_pathData_eq {points : List (Point Number)} (h : ∀ p ∈ points, p.IsFinite) :
    ofText? (pathData points) = some ((ofPoints points).map (map Number.numeral)) := by
  have hwords : ∀ c ∈ ofPoints points, words c.text.toList = (c.map Number.numeral).wordsOf :=
    fun c hc => words_text (isFinite_of_mem_ofPoints h c hc)
  rw [ofText?, ← ofWords?_flatMap, pathData, String.toList_intercalate]
  change ofWords? (words ([' '].intercalate _)) = _
  rw [words_intercalate, List.map_map, List.flatMap_map, List.flatMap_map]
  exact congrArg ofWords? (List.flatMap_congr hwords)

/-- The letter that a command is written with. -/
def letter : PathCommand α → Char
  | moveTo _ _ => 'M'
  | horizontal _ => 'H'
  | vertical _ => 'V'
  | lineTo _ _ => 'L'

theorem mem_text {c : PathCommand Number} (h : c.IsFinite) {char : Char}
    (hchar : char ∈ c.text.toList) : char = c.letter ∨ char = ' ' ∨ isNumeralChar char = true := by
  have hnumeral {a : Number} (ha : Scalar.isFinite a = true)
      (hmem : char ∈ (Scalar.text a).toList) : isNumeralChar char = true :=
    Number.isNumeralChar_of_mem_numeral ha hmem
  cases c with
  | moveTo x y | lineTo x y =>
    simp [text] at hchar
    obtain hletter | hblank | hx | hblank | hy := hchar
    · exact .inl hletter
    · exact .inr (.inl hblank)
    · exact .inr (.inr (hnumeral h.1 hx))
    · exact .inr (.inl hblank)
    · exact .inr (.inr (hnumeral h.2 hy))
  | horizontal a | vertical a =>
    simp [text] at hchar
    obtain hletter | hblank | ha := hchar
    · exact .inl hletter
    · exact .inr (.inl hblank)
    · exact .inr (.inr (hnumeral h ha))

theorem mem_intercalate_blank {texts : List (List Char)} {char : Char}
    (h : char ∈ [' '].intercalate texts) : char = ' ' ∨ ∃ text ∈ texts, char ∈ text := by
  induction texts with
  | nil => simp at h
  | cons text rest ih =>
    cases rest with
    | nil => exact .inr ⟨text, List.mem_cons_self, by simpa using h⟩
    | cons next others =>
      simp only [List.intercalate_cons_cons, List.mem_append, List.mem_singleton] at h
      obtain (htext | hblank) | hrest := h
      · exact .inr ⟨text, List.mem_cons_self, htext⟩
      · exact .inl hblank
      · obtain hblank | ⟨other, hother, hchar⟩ := ih hrest
        · exact .inl hblank
        · exact .inr ⟨other, List.mem_cons_of_mem _ hother, hchar⟩

/-- The text of a polyline consists of blanks, of numbers and of the letters of its commands. -/
theorem mem_pathData {points : List (Point Number)} (h : ∀ p ∈ points, p.IsFinite) {char : Char}
    (hchar : char ∈ (pathData points).toList) :
    char = ' ' ∨ isNumeralChar char = true ∨ ∃ c ∈ ofPoints points, char = c.letter := by
  rw [pathData, String.toList_intercalate] at hchar
  obtain hblank | ⟨text, htext, hchar⟩ := mem_intercalate_blank hchar
  · exact .inl hblank
  · simp only [List.map_map, List.mem_map] at htext
    obtain ⟨c, hc, rfl⟩ := htext
    obtain hletter | hblank | hnumeral := mem_text (isFinite_of_mem_ofPoints h c hc) hchar
    · exact .inr (.inr ⟨c, hc, hletter⟩)
    · exact .inl hblank
    · exact .inr (.inl hnumeral)

/-- The coordinates of a point as drawings print them, but for the sign of a zero. -/
def PrintsAs (printed : Point (List Char)) (p : Point Number) : Prop :=
  Alike printed.x p.x.numeral ∧ Alike printed.y p.y.numeral

/-- A pen at a point is at the next point after the step between them. -/
theorem printsAs_penAfter_between {pen : Point (List Char)} {a b : Point Number}
    (hpen : PrintsAs pen a) (hb : b.IsFinite) :
    PrintsAs (((between a b).map Number.numeral).penAfter pen) b := by
  unfold between
  split_ifs with hy hx
  · exact ⟨Alike.refl _, hpen.2.trans (Number.alike_numeral hb.2 hy).symm⟩
  · exact ⟨hpen.1.trans (Number.alike_numeral hb.1 hx).symm, Alike.refl _⟩
  · exact ⟨Alike.refl _, Alike.refl _⟩

/-- A pen at a point is at the points that follow it, one after the other. -/
theorem visits_follow {pen : Point (List Char)} {a : Point Number} {points : List (Point Number)}
    (hpen : PrintsAs pen a) (h : ∀ p ∈ points, p.IsFinite) :
    List.Forall₂ PrintsAs (visits pen ((follow a points).map (map Number.numeral))) points := by
  induction points generalizing pen a with
  | nil => exact .nil
  | cons b rest ih =>
    rw [List.forall_mem_cons] at h
    have hstep := printsAs_penAfter_between hpen h.1
    exact .cons hstep (ih hstep h.2)

theorem visits_ofPoints (pen : Point (List Char)) {points : List (Point Number)}
    (h : ∀ p ∈ points, p.IsFinite) :
    List.Forall₂ PrintsAs (visits pen ((ofPoints points).map (map Number.numeral))) points := by
  cases points with
  | nil => exact .nil
  | cons a rest =>
    rw [List.forall_mem_cons] at h
    have hfirst : PrintsAs ⟨a.x.numeral, a.y.numeral⟩ a := ⟨Alike.refl _, Alike.refl _⟩
    exact .cons hfirst (visits_follow hfirst h.2)

@[simp]
theorem isOblique_map (f : α → β) (c : PathCommand α) : (c.map f).isOblique = c.isOblique := by
  cases c <;> rfl

/-- Both coordinates of two points differ. -/
def DiffersInBoth (a b : Point Number) : Prop := (b.x == a.x) = false ∧ (b.y == a.y) = false

theorem isOblique_between_iff (a b : Point Number) :
    (between a b).isOblique = true ↔ DiffersInBoth a b := by
  unfold between DiffersInBoth
  split_ifs with hy hx <;> simp [isOblique, *]

theorem isOblique_follow_iff (a : Point Number) (points : List (Point Number)) :
    List.Forall₂ (fun c step => c.isOblique = true ↔ DiffersInBoth step.1 step.2)
      ((follow a points).map (map Number.numeral)) ((a :: points).zip points) := by
  induction points generalizing a with
  | nil => exact .nil
  | cons b rest ih =>
    refine .cons ?_ (ih b)
    rw [isOblique_map]
    exact isOblique_between_iff a b

/-- The text of a polyline with finite coordinates reads as commands that take a pen, wherever it
starts, through exactly the points; and a command after the first one is oblique just where both
coordinates change. -/
theorem visits_of_pathData {points : List (Point Number)} (h : ∀ p ∈ points, p.IsFinite) :
    (points = [] → pathData points = "") ∧
      ∃ commands, ofText? (pathData points) = some commands ∧
        (∀ pen, List.Forall₂ PrintsAs (visits pen commands) points) ∧
        List.Forall₂ (fun c step => c.isOblique = true ↔ DiffersInBoth step.1 step.2)
          commands.tail (points.zip points.tail) := by
  constructor
  · rintro rfl
    rfl
  · refine ⟨_, ofText?_pathData_eq h, fun pen => visits_ofPoints pen h, ?_⟩
    cases points with
    | nil => exact .nil
    | cons a rest => exact isOblique_follow_iff a rest

/-- Zeros of both signs, whole numbers beside doubles, a point twice and an oblique step. -/
theorem visits_of_pathData_signed_zeros :
    ∃ points : List (Point Number), (∀ p ∈ points, p.IsFinite) ∧
      pathData points = "M -0 0 V 0.5 H 7 H 7 L 8 1e-07" ∧
      ∃ commands, ofText? (pathData points) = some commands ∧
        List.Forall₂ PrintsAs (visits ⟨[], []⟩ commands) points := by
  let points : List (Point Number) :=
    [⟨.double (-0), 0⟩, ⟨0, .double 0.5⟩, ⟨7, .double 0.5⟩, ⟨.double 7, .double 0.5⟩,
      ⟨8, .double 1e-7⟩]
  have h : ∀ p ∈ points, p.IsFinite := by decide +kernel
  obtain ⟨-, commands, hcommands, hvisits, -⟩ := visits_of_pathData h
  exact ⟨points, h, by decide +kernel, commands, hcommands, hvisits _⟩

end PathCommand

end EntityDiagram
