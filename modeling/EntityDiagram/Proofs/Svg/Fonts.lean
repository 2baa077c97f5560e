import EntityDiagram.Layout.Options
import EntityDiagram.Proofs.Svg.Template
import EntityDiagram.Proofs.Text.Boundaries

/-! What the choice of a font can do to a document. A font is written in two places of the style
sheet. In the address it is percent-encoded, and no font leaves its place there. As the name of a
family it is written as it is, so a font can end the name, and even the style sheet. -/
namespace EntityDiagram

namespace Svg

variable {α : Type} [Scalar α]

/-- A document up to the place of the font in the address. -/
def beforeAddress (size : Size α) (transparent : Bool) : String :=
  (openTag size transparent).text ++ "\n" ++ "<style>" ++ "\n" ++
    "  @import url('https://fonts.googleapis.com/css2?family="

/-- The rest of the address, behind the font. -/
def addressEnd : String := ":wght@400;700&amp;display=swap"

/-- What stands between the quote behind the address and the name of the family. -/
def beforeFamily : String := ");" ++ "\n" ++ "  text \x7b font-family: '"

/-- The rest of the style sheet, from behind the quotes of the name of the family. -/
def styleEnd : String :=
  ", system-ui, sans-serif; \x7d" ++ "\n" ++
    ("  .mono \x7b font-family: " ++ monospaceFamily ++ "; \x7d") ++ "\n"

/-- A document from the end of its style sheet. -/
def afterStyle (primitives : List (Primitive α)) : String :=
  "</style>" ++ "\n" ++ "\n".intercalate
    ((primitives.flatMap primitiveLines ++ [[Piece.fixed "</svg>"]]).map Line.text)

/-- A font as it stands in the address. -/
def encoded (font : String) : String := String.ofList (Text.percentEncode font.toList)

variable (primitives : List (Primitive α)) (size : Size α) (font : String) (transparent : Bool)

/-- The font stands in two places and nowhere else. -/
theorem svg_eq_fonts : svg primitives size font transparent =
    beforeAddress size transparent ++ encoded font ++ addressEnd ++ "'" ++ beforeFamily ++ font ++
      "'" ++ styleEnd ++ afterStyle primitives := by
  have hlines : primitives.flatMap primitiveLines ++ [[Piece.fixed "</svg>"]] ≠ [] := by simp
  obtain ⟨line, rest, hrest⟩ := List.exists_cons_of_ne_nil hlines
  have haddress : ":wght@400;700&amp;display=swap');" = addressEnd ++ ("'" ++ ");") := by decide
  have hfamily : "', system-ui, sans-serif; \x7d" = "'" ++ ", system-ui, sans-serif; \x7d" := by
    decide
  rw [svg, documentLines, afterStyle, List.append_assoc, hrest]
  unfold beforeAddress beforeFamily styleEnd encoded
  simp only [styleLines, List.cons_append, List.nil_append, List.map_cons,
    String.intercalate_cons_cons, Line.text_cons, text_nil, Piece.text, String.append_empty,
    haddress, hfamily, String.append_assoc]

theorem toList_encoded : (encoded font).toList = Text.percentEncode font.toList :=
  String.toList_ofList

theorem toList_svg : (svg primitives size font transparent).toList =
    (beforeAddress size transparent).toList ++ (Text.percentEncode font.toList ++
      (addressEnd ++ "'" ++ beforeFamily).toList ++
        (font.toList ++ ("'" ++ styleEnd ++ afterStyle primitives).toList)) := by
  simp only [svg_eq_fonts, toList_encoded, String.toList_append, List.append_assoc]

theorem endsOutside_beforeAddress :
    Text.EndsOutside (beforeAddress size transparent).toList := by
  refine ⟨((openTag size transparent).text ++ "\n" ++ "<style").toList,
    ("\n" ++ "  @import url('https://fonts.googleapis.com/css2?family=").toList, ?_,
    by decide⟩
  have htag : "<style>".toList = "<style".toList ++ ['>'] := by decide
  simp only [beforeAddress, String.toList_append, htag, List.append_assoc, List.cons_append,
    List.nil_append]

/-- The markup before the first place is closed, and up to the second place no other follows. -/
theorem markup_svg : Text.markup (svg primitives size font transparent).toList =
    Text.markup (beforeAddress size transparent).toList ++
      Text.markup (font.toList ++ ("'" ++ styleEnd ++ afterStyle primitives).toList) := by
  have haddress : '<' ∉ Text.percentEncode font.toList ++
      (addressEnd ++ "'" ++ beforeFamily).toList := by
    rw [List.mem_append, not_or]
    exact ⟨Text.not_mem_percentEncode rfl, by decide⟩
  rw [toList_svg, (endsOutside_beforeAddress size transparent).markup_append,
    Text.markup_append_of_not_mem haddress]

/-- The markup is that of another font without a `<` exactly for a font without one. -/
theorem markup_svg_eq_iff {other : String} (h : '<' ∉ other.toList) :
    Text.markup (svg primitives size font transparent).toList =
      Text.markup (svg primitives size other transparent).toList ↔ '<' ∉ font.toList := by
  rw [markup_svg, markup_svg, List.append_cancel_left_eq, Text.markup_append_of_not_mem h]
  constructor
  · intro heq
    have hlength := congrArg List.length heq
    rw [Text.length_markup, Text.length_markup, List.count_append] at hlength
    exact List.count_eq_zero.mp (by omega)
  · intro hfont
    exact Text.markup_append_of_not_mem hfont _

/-- The address of the font, as the style sheet holds it. -/
def address (font : String) : List Char :=
  Text.percentEncode font.toList ++ ":wght@400;700&display=swap".toList

/-- The quotes of the address end where they should, whatever the font and whatever follows. -/
theorem quotedString_address (rest : List Char) :
    Text.quotedString (Text.unescape
      ((encoded font).toList ++ addressEnd.toList ++ '\'' :: rest)) .inside =
        some (address font, Text.unescape rest) := by
  have hend : addressEnd.toList =
      ":wght@400;700".toList ++ (['&', 'a', 'm', 'p', ';'] ++ "display=swap".toList) := by decide
  have haddress : ":wght@400;700&display=swap".toList =
      ":wght@400;700".toList ++ '&' :: "display=swap".toList := by decide
  have hreads : Text.unescape ((encoded font).toList ++ addressEnd.toList ++ '\'' :: rest) =
      address font ++ '\'' :: Text.unescape rest := by
    rw [toList_encoded, hend, address, haddress]
    simp only [List.append_assoc]
    rw [Text.unescape_append_of_not_mem (Text.not_mem_percentEncode rfl),
      Text.unescape_append_of_not_mem (by decide),
      Text.unescape_reference_append (r := ('&', ['&', 'a', 'm', 'p', ';'])) (by decide),
      Text.unescape_append_of_not_mem (by decide), Text.unescape_cons (by decide),
      List.cons_append]
  have hplain : ":wght@400;700&display=swap".toList.all Text.isPlain = true := by decide
  rw [hreads, Text.quotedString_eq_iff]
  intro c hc
  rcases List.mem_append.mp hc with hc | hc
  · exact Text.isPlain_of_mem_percentEncode hc
  · exact List.all_eq_true.mp hplain c hc

/-- A font without references is read as the name of the family exactly when its characters are
plain. -/
theorem quotedString_family_eq_iff (h : '&' ∉ font.toList) (rest : List Char) :
    Text.quotedString (Text.unescape (font.toList ++ '\'' :: rest)) .inside =
      some (font.toList, Text.unescape rest) ↔ ∀ c ∈ font.toList, Text.isPlain c = true := by
  rw [Text.unescape_append_of_not_mem h, Text.unescape_cons (by decide)]
  exact Text.quotedString_eq_iff

/-- A document holds its font in two places and is the same around them for every font. In the
address the font is percent-encoded: no font ends the quotes of the address, and decoding gives the
bytes of the font. As the name of a family the font stands as it is: the document has the markup of
one in the default font exactly when there is no `<` in the font, and a font without an ampersand
is read as the name of the family exactly when its characters are plain. -/
theorem font_in_two_places :
    svg primitives size font transparent =
      beforeAddress size transparent ++ encoded font ++ addressEnd ++ "'" ++ beforeFamily ++ font ++
        "'" ++ styleEnd ++ afterStyle primitives ∧
    Text.percentDecode (encoded font).toList = font.toList.flatMap String.utf8EncodeChar ∧
    (∀ c ∈ (encoded font).toList, Text.isAddressChar c = true ∨ c = '%') ∧
    (∀ rest, Text.quotedString (Text.unescape
        ((encoded font).toList ++ addressEnd.toList ++ '\'' :: rest)) .inside =
      some (address font, Text.unescape rest)) ∧
    (Text.markup (svg primitives size font transparent).toList =
        Text.markup (svg primitives size Options.default.fontName transparent).toList ↔
      '<' ∉ font.toList) ∧
    ('&' ∉ font.toList → ∀ rest,
      (Text.quotedString (Text.unescape (font.toList ++ '\'' :: rest)) .inside =
          some (font.toList, Text.unescape rest) ↔
        ∀ c ∈ font.toList, Text.isPlain c = true)) := by
  refine ⟨svg_eq_fonts primitives size font transparent, ?_, ?_, quotedString_address font,
    markup_svg_eq_iff primitives size font transparent (by decide),
    quotedString_family_eq_iff font⟩
  · rw [toList_encoded]
    exact Text.percentDecode_percentEncode _
  · rw [toList_encoded]
    exact fun c => Text.mem_percentEncode

/-- A name of two words is read as it is. -/
theorem font_in_two_places_of_two_words :
    Text.quotedString (Text.unescape ("Fira Code".toList ++ '\'' :: styleEnd.toList)) .inside =
      some ("Fira Code".toList, Text.unescape styleEnd.toList) := by
  obtain ⟨-, -, -, -, -, hfamily⟩ :=
    font_in_two_places ([] : List (Primitive Number)) ⟨10, 10⟩ "Fira Code" false
  exact (hfamily (by decide) styleEnd.toList).mpr (List.all_eq_true.mp (by decide))

/-- A font that ends the style sheet and draws a circle. -/
theorem not_forall_markup_svg_eq_default :
    ¬∀ (primitives : List (Primitive Number)) (size : Size Number) (font : String)
        (transparent : Bool), Text.markup (svg primitives size font transparent).toList =
      Text.markup (svg primitives size Options.default.fontName transparent).toList := by
  intro h
  have hnone := (markup_svg_eq_iff [] ⟨10, 10⟩ "</style><circle />" false (by decide)).mp
    (h [] ⟨10, 10⟩ "</style><circle />" false)
  exact hnone (by decide)

end Svg

end EntityDiagram
