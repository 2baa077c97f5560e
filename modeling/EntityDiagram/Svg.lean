import EntityDiagram.Canvas
import EntityDiagram.PathData
import EntityDiagram.Svg.Piece
import EntityDiagram.Svg.Rows

/-! Drawings as SVG. Strong entities have square corners and weak entities rounded ones; identifying
connectors are solid and the others dashed. -/
namespace EntityDiagram

namespace Svg

variable {α : Type} [Scalar α]

def foreground : String := "#27272A"

def background : String := "#FFFFFF"

def muted : String := "#71717A"

def monospaceFamily : String :=
  "'JetBrains Mono', 'SF Mono', 'Fira Code', ui-monospace, monospace"

/-- The shift that centers text on its height. -/
def baselineShift : String := "0.35em"

def openTag (size : Size α) (transparent : Bool) : Line :=
  let width := Scalar.text size.width
  let height := Scalar.text size.height
  let style := if transparent then [] else [("style", "background:" ++ background)]
  [.fixed ("<svg" ++ attributesText
    ([("xmlns", "http://www.w3.org/2000/svg"), ("viewBox", "0 0 " ++ width ++ " " ++ height),
      ("width", width), ("height", height)] ++ style) ++ ">")]

def styleLines (font : String) : List Line :=
  [[.fixed "<style>"],
    [.fixed "  @import url('https://fonts.googleapis.com/css2?family=", .fontAddress font,
      .fixed ":wght@400;700&amp;display=swap');"],
    [.fixed "  text \x7b font-family: '", .fontFamily font,
      .fixed "', system-ui, sans-serif; \x7d"],
    [.fixed ("  .mono \x7b font-family: " ++ monospaceFamily ++ "; \x7d")],
    [.fixed "</style>"]]

/-- A row of a box; key rows are underlined. -/
def row (left : α) (isKey : Bool) (r : PlacedRow α) : Line :=
  let decoration := if isKey then [("text-decoration", "underline")] else []
  textElement
    ([("x", Scalar.text (left + Measure.sidePadding)),
      ("y", Scalar.text (r.top + Measure.rowHeight / 2)), ("class", "mono"), ("dy", baselineShift),
      ("font-size", "11"), ("font-weight", "400"), ("fill", foreground)] ++ decoration) r.content

def boxFrame (b : Box α) : Line :=
  let radius := if b.style = .weakEntity then "8" else "0"
  element "rect"
    [("x", Scalar.text b.rect.x), ("y", Scalar.text b.rect.y),
      ("width", Scalar.text b.rect.width), ("height", Scalar.text b.rect.height),
      ("rx", radius), ("ry", radius), ("fill", background), ("stroke", foreground),
      ("stroke-width", "1"), ("class", b.style.tag)]

def boxTitle (b : Box α) : Line :=
  textElement
    [("x", Scalar.text (b.rect.x + b.rect.width / 2)),
      ("y", Scalar.text (b.rect.y + Measure.headerHeight / 2)), ("text-anchor", "middle"),
      ("dy", baselineShift), ("font-size", "13"), ("font-weight", "700"), ("fill", foreground)]
    b.title

def boxSeparator (b : Box α) (y : α) : Line :=
  let height := Scalar.text y
  element "line"
    [("x1", Scalar.text b.rect.x), ("y1", height), ("x2", Scalar.text (b.rect.x + b.rect.width)),
      ("y2", height), ("stroke", foreground), ("stroke-width", "0.75")]

/-- The frame and the title of a box, its key rows, its separator and its other rows. -/
def boxLines (b : Box α) : List Line :=
  [boxFrame b, boxTitle b] ++ b.placedKeyRows.map (row b.rect.x true) ++
    b.separator?.toList.map (boxSeparator b) ++ b.placedOtherRows.map (row b.rect.x false)

def pathElement (points : List (Point α)) (style : PathStyle) : Line :=
  let width := if style = .generalization then "2" else "1.5"
  let dashes := if style = .nonIdentifying then [("stroke-dasharray", "6 4")] else []
  element "path"
    ([("d", pathData points), ("fill", "none"), ("stroke", foreground), ("stroke-width", width)] ++
      dashes ++ [("class", style.tag)])

def labelElement (point : Point α) (content : String) (anchor : TextAnchor) (style : TextStyle) :
    Line :=
  textElement
    [("x", Scalar.text point.x), ("y", Scalar.text point.y), ("text-anchor", anchor.tag),
      ("font-size", "11"), ("font-weight", "400"),
      ("fill", if style = .relationshipLabel then muted else foreground), ("class", style.tag)]
    content

def circleElement (center : Point α) (radius : α) (style : CircleStyle) : Line :=
  element "circle"
    [("cx", Scalar.text center.x), ("cy", Scalar.text center.y), ("r", Scalar.text radius),
      ("fill", if style = .cardinalityDot then foreground else background),
      ("stroke", foreground), ("stroke-width", "1.5"), ("class", style.tag)]

def underlineElement (a b : Point α) : Line :=
  element "line"
    [("x1", Scalar.text a.x), ("y1", Scalar.text a.y), ("x2", Scalar.text b.x),
      ("y2", Scalar.text b.y), ("stroke", foreground), ("stroke-width", "2"),
      ("stroke-linecap", "round")]

def markerElement (corner : Point α) (side : α) : Line :=
  element "rect"
    [("x", Scalar.text corner.x), ("y", Scalar.text corner.y), ("width", Scalar.text side),
      ("height", Scalar.text side), ("fill", background), ("stroke", foreground),
      ("stroke-width", "1"), ("class", optionalMarkerTag)]

def primitiveLines : Primitive α → List Line
  | .box b => boxLines b
  | .path points style => [pathElement points style]
  | .text point content anchor style => [labelElement point content anchor style]
  | .circle center radius style => [circleElement center radius style]
  | .underline a b => [underlineElement a b]
  | .optionalMarker corner side => [markerElement corner side]

/-- The lines of a document, in the order of the primitives. -/
def documentLines (primitives : List (Primitive α)) (size : Size α) (font : String)
    (transparent : Bool) : List Line :=
  openTag size transparent :: styleLines font ++ primitives.flatMap primitiveLines ++
    [[.fixed "</svg>"]]

/-- The numbers that are written for a box, or added to a fraction before. -/
def boxNumbers (b : Box α) : List α :=
  b.rect.numbers ++
    (b.separator?.toList.flatMap fun _ => [b.rect.x + b.rect.width, b.keyRowsBottom]) ++
    (b.placedKeyRows ++ b.placedOtherRows).flatMap fun r => [b.rect.x + Measure.sidePadding, r.top]

/-- The numbers that must fit for a primitive to be written. -/
def primitiveNumbers : Primitive α → List α
  | .box b => boxNumbers b
  | .path points _ => points.flatMap fun p => [p.x, p.y]
  | .text point .. => [point.x, point.y]
  | .circle center radius _ => [center.x, center.y, radius]
  | .underline a b => [a.x, a.y, b.x, b.y]
  | .optionalMarker corner side => [corner.x, corner.y, side]

def documentNumbers (primitives : List (Primitive α)) (size : Size α) : List α :=
  [size.width, size.height] ++ primitives.flatMap primitiveNumbers

end Svg

/-- The SVG text of a drawing. -/
def svg {α : Type} [Scalar α] (primitives : List (Primitive α)) (size : Size α) (font : String)
    (transparent : Bool) : String :=
  "\n".intercalate ((Svg.documentLines primitives size font transparent).map Svg.Line.text)

/-- Writes a drawing as SVG. Numbers are written as doubles, so each of them has to fit. -/
def writeSvg {α : Type} [Scalar α] (primitives : List (Primitive α)) (size : Size α)
    (font : String) (transparent : Bool) : Except ArithmeticFault String :=
  if (Svg.documentNumbers primitives size).all Scalar.fits then
    .ok (svg primitives size font transparent)
  else .error .tooLarge

end EntityDiagram
