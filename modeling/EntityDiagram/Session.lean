import EntityDiagram.Drawing
import EntityDiagram.Layout
import EntityDiagram.Measure
import EntityDiagram.Source

/-! A diagram on screen: its scale, and the one entity that is being dragged. Whatever moves an
entity answers with a new drawing. -/
namespace EntityDiagram

/-- The entity that is dragged, and the pointer relative to its top left corner. -/
structure Drag (α : Type) where
  entity : String
  offset : Point α
  deriving DecidableEq, Repr

structure Session (α : Type) where
  options : Options
  diagram : Diagram α
  scale : α
  drag : Option (Drag α)
  deriving DecidableEq, Repr

inductive SessionError where
  | alreadyDragging (entity : String)
  | notLaidOut (entity : String)
  | noDrag
  | unknownEntity (entity : String)
  deriving DecidableEq, Repr

def SessionError.message : SessionError → String
  | alreadyDragging entity => "\"" ++ entity ++ "\" is already being dragged"
  | notLaidOut entity => "\"" ++ entity ++ "\" has not been laid out yet"
  | noDrag => "no drag in progress"
  | unknownEntity entity => "unknown entity \"" ++ entity ++ "\""

/-- Why an operation of a session has no result. -/
inductive SessionFailure where
  | source (error : Source.SourceError)
  | session (error : SessionError)
  | arithmetic (fault : ArithmeticFault)
  deriving DecidableEq, Repr

namespace Session

variable {α : Type} [Scalar α] [Layered.ComponentLayout α]

def create (diagram : Diagram α) (options : Options) : Session α := ⟨options, diagram, 1, none⟩

/-- The session after an operation, and its result. -/
abbrev Outcome (α β : Type) := Session α × Except SessionFailure β

def dragging (s : Session α) : Option String := s.drag.map (·.entity)

def redraw (s : Session α) : Outcome α (Drawing α) := (s, s.diagram.draw.mapError .arithmetic)

/-- Places all entities as the options say. An arrangement that does not come to its end is not
drawn. -/
def autoLayout (s : Session α) : Outcome α (Drawing α) :=
  let (diagram, result) := s.diagram.arrange s.options
  let s := { s with diagram }
  match result with
  | .error fault => (s, .error (.arithmetic fault))
  | .ok () => s.redraw

/-- Replaces the diagram by a measured one that is laid out afresh; any drag ends. -/
def openSchema (s : Session α) (schema : Schema) : Outcome α (Drawing α) :=
  autoLayout { s with diagram := (Diagram.ofSchema schema).measure, drag := none }

/-- Replaces the diagram by that of a source. A source that cannot be read changes nothing. -/
def load (s : Session α) (source : String) : Outcome α (Drawing α) :=
  match Source.parse source with
  | .error error => (s, .error (.source error))
  | .ok document => s.openSchema document.schema

def zoomStep : α := 12 / 10

def leastScale : α := 3 / 10

def greatestScale : α := 3

def zoomIn (s : Session α) : Session α :=
  { s with scale := Scalar.smaller (s.scale * zoomStep) greatestScale }

def zoomOut (s : Session α) : Session α :=
  { s with scale := Scalar.larger (s.scale / zoomStep) leastScale }

def resetZoom (s : Session α) : Session α := { s with scale := 1 }

/-- The point of the diagram that is shown at a point of the screen. -/
def toDiagram (s : Session α) (screen : Point α) : Except ArithmeticFault (Point α) := do
  let x ← Scalar.quotient screen.x s.scale
  let y ← Scalar.quotient screen.y s.scale
  return ⟨x, y⟩

/-- A pointer relative to a point of the diagram. -/
def offsetFrom (s : Session α) (origin pointer : Point α) : Except ArithmeticFault (Point α) := do
  let p ← s.toDiagram pointer
  let x ← Scalar.difference p.x origin.x
  let y ← Scalar.difference p.y origin.y
  return ⟨x, y⟩

/-- The drag that begins when the pointer takes hold of an entity. -/
def dragFrom (s : Session α) (entity : String) (pointer : Point α) :
    Except SessionFailure (Drag α) :=
  match s.drag with
  | some drag => .error (.session (.alreadyDragging drag.entity))
  | none =>
    match s.diagram.node? entity with
    | none => .error (.session (.unknownEntity entity))
    | some n =>
      match n.position with
      | none => .error (.session (.notLaidOut entity))
      | some corner => do
        let offset ← (s.offsetFrom corner pointer).mapError .arithmetic
        return ⟨entity, offset⟩

def beginDrag (s : Session α) (entity : String) (pointer : Point α) : Outcome α Unit :=
  match s.dragFrom entity pointer with
  | .error failure => (s, .error failure)
  | .ok drag => ({ s with drag := some drag }, .ok ())

/-- What an area leaves beside a box. -/
def room (area bounds : Size α) : Except ArithmeticFault (Size α) := do
  let width ← Scalar.difference area.width bounds.width
  let height ← Scalar.difference area.height bounds.height
  return ⟨width, height⟩

/-- A corner kept within some room; the near sides win over the far ones. -/
def keepInside (corner : Point α) (room : Size α) : Point α :=
  ⟨Scalar.larger 0 (Scalar.smaller corner.x room.width),
    Scalar.larger 0 (Scalar.smaller corner.y room.height)⟩

/-- Where the dragged entity goes under a pointer. -/
def dragTarget (s : Session α) (pointer : Point α) (area : Option (Size α)) :
    Except SessionFailure (String × Point α) :=
  match s.drag with
  | none => .error (.session .noDrag)
  | some drag =>
    match s.diagram.node? drag.entity with
    | none => .error (.session (.unknownEntity drag.entity))
    | some n => do
      let corner ← (s.offsetFrom drag.offset pointer).mapError .arithmetic
      match area with
      | none => return (drag.entity, corner)
      | some area =>
        let room ← (room area (n.bounds.getD ⟨0, 0⟩)).mapError .arithmetic
        return (drag.entity, keepInside corner room)

/-- Moves the dragged entity under the pointer, inside an area where one is given. -/
def dragTo (s : Session α) (pointer : Point α) (area : Option (Size α)) : Outcome α (Drawing α) :=
  match s.dragTarget pointer area with
  | .error failure => (s, .error failure)
  | .ok (entity, corner) =>
    redraw { s with diagram := s.diagram.setPosition entity (some corner) }

def endDrag (s : Session α) : Session α := { s with drag := none }

end Session

end EntityDiagram
