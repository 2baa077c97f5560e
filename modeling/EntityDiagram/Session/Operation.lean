import EntityDiagram.Session

/-! Whatever a caller may do with a session, one operation after the other. An operation that fails
leaves a session too, so a run goes on after it. -/
namespace EntityDiagram

inductive Operation (α : Type) where
  | load (source : String)
  | autoLayout
  | redraw
  | zoomIn
  | zoomOut
  | resetZoom
  | beginDrag (entity : String) (pointer : Point α)
  | dragTo (pointer : Point α) (area : Option (Size α))
  | endDrag
  deriving DecidableEq, Repr

/-- What an operation answers when it does not fail. -/
inductive Answer (α : Type) where
  | drawing (drawing : Drawing α)
  | scale (scale : α)
  | done
  deriving DecidableEq, Repr

namespace Operation

variable {α : Type}

/-- The schema that an operation reads from a source, if it can be read. -/
def schema? : Operation α → Option Schema
  | load source =>
    match Source.parse source with
    | .error _ => none
    | .ok document => some document.schema
  | _ => none

/-- The schema that was read last in a run of operations. -/
def lastSchema? (operations : List (Operation α)) : Option Schema :=
  (operations.filterMap schema?).getLast?

end Operation

namespace Session

variable {α : Type} [Scalar α] [Layered.ComponentLayout α]

/-- A session that shows a source from the beginning. -/
def fromSource (source : String) (options : Options) : Except SessionFailure (Session α) :=
  let (s, drawing) := (create Diagram.empty options).load source
  drawing.map fun _ => s

/-- One operation. -/
def perform (s : Session α) : Operation α → Outcome α (Answer α)
  | .load source => (s.load source).map id (·.map .drawing)
  | .autoLayout => s.autoLayout.map id (·.map .drawing)
  | .redraw => s.redraw.map id (·.map .drawing)
  | .zoomIn => (s.zoomIn, .ok (.scale s.zoomIn.scale))
  | .zoomOut => (s.zoomOut, .ok (.scale s.zoomOut.scale))
  | .resetZoom => (s.resetZoom, .ok (.scale s.resetZoom.scale))
  | .beginDrag entity pointer => (s.beginDrag entity pointer).map id (·.map fun _ => .done)
  | .dragTo pointer area => (s.dragTo pointer area).map id (·.map .drawing)
  | .endDrag => (s.endDrag, .ok .done)

/-- The session after some operations. -/
def run (s : Session α) (operations : List (Operation α)) : Session α :=
  operations.foldl (fun s operation => (s.perform operation).1) s

end Session

end EntityDiagram
