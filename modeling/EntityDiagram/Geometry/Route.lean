import EntityDiagram.Geometry.Failure

/-! Connectors with two bends, every segment along an axis. -/
namespace EntityDiagram

variable {α : Type} [Scalar α]

/-- Start, two bends and end, and the middle of the segment between the bends. -/
structure Route (α : Type) where
  start : Point α
  firstBend : Point α
  secondBend : Point α
  finish : Point α
  midpoint : Point α
  deriving DecidableEq, Repr

namespace Route

def points (r : Route α) : List (Point α) := [r.start, r.firstBend, r.secondBend, r.finish]

/-- How far a label stands above the middle of its route. -/
def labelRaise : α := 12

def labelPoint (r : Route α) : Point α := ⟨r.midpoint.x, r.midpoint.y - labelRaise⟩

/-- The bends stand half-way along the axis of the greater difference. -/
def between (start finish : Point α) : Route α :=
  let dx := finish.x - start.x
  let dy := finish.y - start.y
  if Scalar.abs dy < Scalar.abs dx then
    let x := start.x + dx / 2
    ⟨start, ⟨x, start.y⟩, ⟨x, finish.y⟩, finish, ⟨x, (start.y + finish.y) / 2⟩⟩
  else
    let y := start.y + dy / 2
    ⟨start, ⟨start.x, y⟩, ⟨finish.x, y⟩, finish, ⟨(start.x + finish.x) / 2, y⟩⟩

end Route

/-- The route between two points, all of whose coordinates must be finite. -/
def route (start finish : Point α) (subject : Option String) : Except (Failure α) (Route α) := do
  let r := Route.between start finish
  (r.points ++ [r.midpoint]).forM fun p => checkFinite subject [p.x, p.y]
  return r

end EntityDiagram
