import EntityDiagram.Session
import EntityDiagram.Svg

/-! From source text to SVG in one step, with notices about what was left out. -/
namespace EntityDiagram

/-- An image of a source, and the notices that its making gave. -/
structure Image where
  svg : String
  notices : List String
  deriving DecidableEq, Repr

/-- A notice for every part that was left out, and their number at the end. -/
def skippedNotices {α : Type} [Scalar α] (errors : List (PartError α)) : List String :=
  if errors.isEmpty then []
  else
    errors.map (fun e => "Skipped part of the diagram: " ++ e.message) ++
      ["Rendered with " ++ toString errors.length ++ " skipped part(s)"]

/-- The image of a source. What cannot be drawn is left out. -/
def render (α : Type) [Scalar α] [Layered.ComponentLayout α] (source : String)
    (options : Options) : Except SessionFailure Image := do
  let document ← (Source.parse source).mapError .source
  let drawing ← ((Session.create Diagram.empty options).openSchema (α := α) document.schema).2
  let size ← (canvasSize drawing.primitives canvasPadding).mapError .arithmetic
  let svg ← (writeSvg drawing.primitives size options.fontName options.transparent).mapError
    .arithmetic
  return {
    svg
    notices := document.duplicates.map (·.message) ++ skippedNotices drawing.errors }

end EntityDiagram
