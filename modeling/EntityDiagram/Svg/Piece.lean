import EntityDiagram.Text.Markup
import EntityDiagram.Text.Percent

/-! Markup as a sequence of pieces. Only a piece that is text or a font name depends on words of a
diagram or on the choice of font; all others are fixed by what is drawn and where. -/
namespace EntityDiagram.Svg

inductive Piece where
  | fixed (markup : String)
  /-- Text of a diagram, escaped. -/
  | content (text : String)
  /-- The font inside an address, percent-encoded. -/
  | fontAddress (font : String)
  /-- The font as the name of a family. -/
  | fontFamily (font : String)
  deriving DecidableEq, Repr

def Piece.text : Piece → String
  | fixed markup => markup
  | content text => String.ofList (Text.escape text.toList)
  | fontAddress font => String.ofList (Text.percentEncode font.toList)
  | fontFamily font => font

/-- A line of markup. -/
abbrev Line := List Piece

def Line.text (line : Line) : String := String.join (line.map Piece.text)

/-- An attribute of an element, after a blank. -/
def attributeText (a : String × String) : String := " " ++ a.1 ++ "=\"" ++ a.2 ++ "\""

def attributesText (attributes : List (String × String)) : String :=
  String.join (attributes.map attributeText)

/-- An element without content. -/
def element (tag : String) (attributes : List (String × String)) : Line :=
  [.fixed ("<" ++ tag ++ attributesText attributes ++ " />")]

/-- A text element. -/
def textElement (attributes : List (String × String)) (content : String) : Line :=
  [.fixed ("<text" ++ attributesText attributes ++ ">"), .content content, .fixed "</text>"]

end EntityDiagram.Svg
