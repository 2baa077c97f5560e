import EntityDiagram.Scalar.Number
import EntityDiagram.Svg
import EntityDiagram.Proofs.Text.References

/-! Documents as templates. What is drawn and where fixes the markup of a document; the words of the
diagram only fill places in it, each of them escaped. So drawings that differ in words alone have
the same markup. -/
namespace EntityDiagram

/-- A stretch of markup, or the place of a text. -/
inductive Segment where
  | fixed (markup : String)
  | place
  deriving DecidableEq, Repr

/-- Markup with places for texts. -/
abbrev Template := List Segment

namespace Template

/-- How many texts a template takes. -/
def places : Template → Nat
  | [] => 0
  | .fixed _ :: rest => places rest
  | .place :: rest => places rest + 1

/-- Puts texts into the places, in order. -/
def fill : Template → List String → String
  | [], _ => ""
  | .fixed markup :: rest, texts => markup ++ fill rest texts
  | .place :: rest, text :: texts => text ++ fill rest texts
  | .place :: rest, [] => fill rest []

theorem places_append (t u : Template) : places (t ++ u) = places t + places u := by
  induction t with
  | nil => simp [places]
  | cons s t ih => cases s <;> simp [places, ih, Nat.add_right_comm]

/-- Each part of a template takes its own texts. -/
theorem fill_append {t u : Template} {texts more : List String} (h : places t = texts.length) :
    fill (t ++ u) (texts ++ more) = fill t texts ++ fill u more := by
  induction t generalizing texts with
  | nil =>
    obtain rfl : texts = [] := List.length_eq_zero_iff.mp h.symm
    simp [fill]
  | cons s t ih =>
    cases s with
    | fixed markup => simp [fill, ih h, String.append_assoc]
    | place =>
      cases texts with
      | nil => contradiction
      | cons text texts => simp [fill, ih (Nat.succ.inj h), String.append_assoc]

end Template

namespace Svg

def Piece.segment : Piece → Segment
  | .content _ => .place
  | piece => .fixed piece.text

def Piece.content? : Piece → Option String
  | .content text => some text
  | _ => none

/-- The markup of a line. -/
def Line.template (line : Line) : Template := line.map Piece.segment

/-- The words of a line. -/
def Line.contents (line : Line) : List String := line.filterMap Piece.content?

/-- Words as they stand in a document. -/
def escaped (text : String) : String := String.ofList (Text.escape text.toList)

theorem Line.places_template (line : Line) :
    Template.places line.template = line.contents.length := by
  induction line with
  | nil => rfl
  | cons piece line ih =>
    cases piece with
    | content text => exact congrArg (· + 1) ih
    | fixed _ | fontAddress _ | fontFamily _ => exact ih

theorem text_nil : Line.text [] = "" := rfl

theorem Line.text_cons (piece : Piece) (line : Line) :
    Line.text (piece :: line) = piece.text ++ Line.text line := String.join_cons

theorem Line.text_eq_fill (line : Line) :
    line.text = Template.fill line.template (line.contents.map escaped) := by
  induction line with
  | nil => rfl
  | cons piece line ih =>
    rw [Line.text_cons, ih]
    cases piece <;> rfl

/-- The markup of lines one below the other. -/
def joinLines (lines : List Line) : Template :=
  [Segment.fixed "\n"].intercalate (lines.map Line.template)

theorem joinLines_cons_cons (line next : Line) (rest : List Line) :
    joinLines (line :: next :: rest) =
      line.template ++ .fixed "\n" :: joinLines (next :: rest) := by
  simp [joinLines, List.intercalate_cons_cons]

theorem places_joinLines (lines : List Line) :
    Template.places (joinLines lines) = (lines.flatMap Line.contents).length := by
  induction lines with
  | nil => rfl
  | cons line lines ih =>
    cases lines with
    | nil => simpa [joinLines] using line.places_template
    | cons next rest =>
      rw [joinLines_cons_cons, Template.places_append, line.places_template, Template.places, ih]
      simp

theorem intercalate_text_eq_fill (lines : List Line) : "\n".intercalate (lines.map Line.text) =
    Template.fill (joinLines lines) ((lines.flatMap Line.contents).map escaped) := by
  induction lines with
  | nil => rfl
  | cons line lines ih =>
    cases lines with
    | nil => simpa [joinLines] using line.text_eq_fill
    | cons next rest =>
      have hplaces : Template.places line.template = (line.contents.map escaped).length := by
        rw [line.places_template, List.length_map]
      have hcontents : (line :: next :: rest).flatMap Line.contents =
          line.contents ++ (next :: rest).flatMap Line.contents := List.flatMap_cons
      rw [List.map_cons, List.map_cons, String.intercalate_cons_cons, ← List.map_cons, ih,
        line.text_eq_fill, joinLines_cons_cons, hcontents, List.map_append,
        Template.fill_append hplaces, Template.fill, String.append_assoc]

end Svg

/-- The words of a primitive, in the order in which they are drawn. -/
def Primitive.texts {α : Type} : Primitive α → List String
  | .box b => b.title :: (b.keyRows ++ b.otherRows)
  | .text _ content _ _ => [content]
  | .path _ _ | .circle _ _ _ | .underline _ _ | .optionalMarker _ _ => []

/-- A box whose title and rows are left blank. -/
def Box.wordless {α : Type} (b : Box α) : Box α :=
  { b with
    title := ""
    keyRows := b.keyRows.map fun _ => ""
    otherRows := b.otherRows.map fun _ => "" }

/-- A primitive with its words left blank: its kind, its coordinates, its style, and the number of
rows of each sort in a box. -/
def Primitive.wordless {α : Type} : Primitive α → Primitive α
  | .box b => .box b.wordless
  | .text point _ anchor style => .text point "" anchor style
  | other => other

namespace Svg

variable {α : Type} [Scalar α]

theorem flatMap_contents_stack (top left : α) (isKey : Bool) (rows : List String) :
    ((PlacedRow.stack top rows).map (row left isKey)).flatMap Line.contents = rows := by
  induction rows generalizing top with
  | nil => rfl
  | cons r rest ih =>
    rw [PlacedRow.stack, List.map_cons, List.flatMap_cons, ih]
    rfl

theorem template_stack_wordless (top left : α) (isKey : Bool) (rows : List String) :
    ((PlacedRow.stack top (rows.map fun _ => "")).map (row left isKey)).map Line.template =
      ((PlacedRow.stack top rows).map (row left isKey)).map Line.template := by
  induction rows generalizing top with
  | nil => rfl
  | cons r rest ih =>
    rw [List.map_cons, PlacedRow.stack, PlacedRow.stack, List.map_cons, List.map_cons,
      List.map_cons, List.map_cons, ih]
    rfl

theorem stackBottom_wordless (top : α) (rows : List String) :
    PlacedRow.stackBottom top (rows.map fun _ => "") = PlacedRow.stackBottom top rows := by
  induction rows generalizing top with
  | nil => rfl
  | cons r rest ih => exact ih _

/-- The words of the lines of a box are its own. -/
theorem flatMap_contents_boxLines (b : Box α) :
    (boxLines b).flatMap Line.contents = b.title :: (b.keyRows ++ b.otherRows) := by
  have hseparator :
      (b.separator?.toList.map (boxSeparator b)).flatMap Line.contents = [] := by
    cases b.separator? <;> rfl
  have hframe : [boxFrame b, boxTitle b].flatMap Line.contents = [b.title] := rfl
  rw [boxLines, List.flatMap_append, List.flatMap_append, List.flatMap_append, hframe, hseparator,
    Box.placedKeyRows, Box.placedOtherRows, flatMap_contents_stack, flatMap_contents_stack,
    List.append_nil]
  rfl

theorem keyRowsBottom_wordless (b : Box α) : b.wordless.keyRowsBottom = b.keyRowsBottom :=
  stackBottom_wordless _ _

theorem separator?_wordless (b : Box α) : b.wordless.separator? = b.separator? := by
  have hkeys : b.wordless.keyRows.isEmpty = b.keyRows.isEmpty := List.isEmpty_map
  have hothers : b.wordless.otherRows.isEmpty = b.otherRows.isEmpty := List.isEmpty_map
  rw [Box.separator?, hkeys, hothers, keyRowsBottom_wordless, ← Box.separator?]

/-- The markup of a box does not depend on its words. -/
theorem template_boxLines_wordless (b : Box α) :
    (boxLines b.wordless).map Line.template = (boxLines b).map Line.template := by
  have hframe : [boxFrame b.wordless, boxTitle b.wordless].map Line.template =
      [boxFrame b, boxTitle b].map Line.template := rfl
  have hkeys : (b.wordless.placedKeyRows.map (row b.wordless.rect.x true)).map Line.template =
      (b.placedKeyRows.map (row b.rect.x true)).map Line.template :=
    template_stack_wordless _ _ _ _
  have hothers : (b.wordless.placedOtherRows.map (row b.wordless.rect.x false)).map Line.template =
      (b.placedOtherRows.map (row b.rect.x false)).map Line.template := by
    rw [Box.placedOtherRows, keyRowsBottom_wordless]
    exact template_stack_wordless _ _ _ _
  simp only [boxLines, List.map_append, hframe, hkeys, separator?_wordless, hothers]
  rfl

/-- The words of the lines of a primitive are its own. -/
theorem flatMap_contents_primitiveLines (p : Primitive α) :
    (primitiveLines p).flatMap Line.contents = p.texts := by
  cases p with
  | box b => exact flatMap_contents_boxLines b
  | text _ _ _ _ | path _ _ | circle _ _ _ | underline _ _ | optionalMarker _ _ => rfl

/-- The markup of a primitive does not depend on its words. -/
theorem template_primitiveLines_wordless (p : Primitive α) :
    (primitiveLines p.wordless).map Line.template = (primitiveLines p).map Line.template := by
  cases p with
  | box b => exact template_boxLines_wordless b
  | text _ _ _ _ | path _ _ | circle _ _ _ | underline _ _ | optionalMarker _ _ => rfl

/-- The markup of a document, with places for the words of its primitives. -/
def template (primitives : List (Primitive α)) (size : Size α) (font : String)
    (transparent : Bool) : Template :=
  joinLines (documentLines primitives size font transparent)

variable (primitives : List (Primitive α)) (size : Size α) (font : String) (transparent : Bool)

theorem flatMap_contents_documentLines :
    (documentLines primitives size font transparent).flatMap Line.contents =
      primitives.flatMap Primitive.texts := by
  have hopen : (openTag size transparent :: styleLines font).flatMap Line.contents = [] := rfl
  have hclose : [[Piece.fixed "</svg>"]].flatMap Line.contents = [] := rfl
  rw [documentLines, List.flatMap_append, List.flatMap_append, hopen, hclose, List.flatMap_assoc,
    List.nil_append, List.append_nil]
  simp only [flatMap_contents_primitiveLines]

theorem template_wordless : template (primitives.map Primitive.wordless) size font transparent =
    template primitives size font transparent := by
  simp only [template, joinLines, documentLines, List.map_append, List.map_flatMap,
    List.flatMap_map, template_primitiveLines_wordless]

/-- A document is its template with the escaped words of the primitives in the places. -/
theorem svg_eq_fill_template : svg primitives size font transparent =
    Template.fill (template primitives size font transparent)
      ((primitives.flatMap Primitive.texts).map escaped) := by
  rw [svg, intercalate_text_eq_fill, flatMap_contents_documentLines]
  rfl

theorem places_template : Template.places (template primitives size font transparent) =
    (primitives.flatMap Primitive.texts).length := by
  rw [template, places_joinLines, flatMap_contents_documentLines]

/-- Drawings that differ in words alone are written with one markup, which is that of the drawing
without words, and their escaped words stand in its places. Escaped words hold no reserved character
but the ampersands of references, and one pass over the references gives the words back. -/
theorem svg_eq_fill_of_wordless_eq {first second : List (Primitive α)}
    (h : first.map Primitive.wordless = second.map Primitive.wordless) (size : Size α)
    (font : String) (transparent : Bool) :
    (∀ drawing ∈ [first, second],
      (template (first.map Primitive.wordless) size font transparent).places =
        (drawing.flatMap Primitive.texts).length ∧
      svg drawing size font transparent =
        (template (first.map Primitive.wordless) size font transparent).fill
          ((drawing.flatMap Primitive.texts).map escaped)) ∧
    ∀ text : String, Text.IsEscaped (escaped text).toList ∧
      Text.unescape (escaped text).toList = text.toList ∧
      (escaped text).toList = Text.replaceReserved text.toList := by
  constructor
  · intro drawing hdrawing
    have hsame : drawing.map Primitive.wordless = first.map Primitive.wordless := by
      rcases List.mem_pair.mp hdrawing with rfl | rfl
      · rfl
      · exact h.symm
    rw [← hsame, template_wordless, places_template, svg_eq_fill_template]
    exact ⟨rfl, rfl⟩
  · intro text
    rw [escaped, String.toList_ofList]
    exact ⟨Text.isEscaped_escape _, Text.unescape_escape _, Text.escape_eq_replaceReserved _⟩

/-- Names that look like markup, beside names that do not. -/
theorem svg_eq_fill_of_wordless_eq_of_tags :
    let frame : Rect Number := ⟨0, 0, 140, 60⟩
    let plain := [Primitive.box ⟨frame, .strongEntity, "Book", ["id"], []⟩]
    let tags := [Primitive.box ⟨frame, .strongEntity, "</text>", ["\"&amp;'"], []⟩]
    plain.map Primitive.wordless = tags.map Primitive.wordless ∧
      ∃ markup : Template, markup.places = 2 ∧
        svg plain ⟨180, 100⟩ "Inter" false = markup.fill ["Book", "id"] ∧
        svg tags ⟨180, 100⟩ "Inter" false =
          markup.fill ["&lt;/text&gt;", "&quot;&amp;amp;&#39;"] := by
  intro frame plain tags
  have hshape : plain.map Primitive.wordless = tags.map Primitive.wordless := rfl
  obtain ⟨h, -⟩ := svg_eq_fill_of_wordless_eq hshape ⟨180, 100⟩ "Inter" false
  obtain ⟨hplaces, hplain⟩ := h plain List.mem_cons_self
  obtain ⟨-, htags⟩ := h tags (List.mem_cons_of_mem _ List.mem_cons_self)
  have hplainTexts : (plain.flatMap Primitive.texts).map escaped = ["Book", "id"] := by
    decide +kernel
  have htagTexts : (tags.flatMap Primitive.texts).map escaped =
      ["&lt;/text&gt;", "&quot;&amp;amp;&#39;"] := by
    decide +kernel
  exact ⟨hshape, _, hplaces, hplainTexts ▸ hplain, htagTexts ▸ htags⟩

end Svg

end EntityDiagram
