import EntityDiagram.Geometry.Failure

/-! Where a connector leaves a box: on the edge that faces the other box, in the direction from
center to center, one unit inside the border. -/
namespace EntityDiagram

variable {α : Type} [Scalar α]

/-- How far an end of a connector lies inside the border. -/
def borderInset : α := 1

/-- Whether a direction is more horizontal than vertical. -/
def isHorizontal (dx dy : α) : Bool := Scalar.abs dy < Scalar.abs dx

/-- The point of the facing edge in a direction from the center. The greater difference decides
between left or right and top or bottom; the other coordinate is interpolated and kept within the
edge. -/
def Rect.edgePoint (r : Rect α) (dx dy : α) : Except (Failure α) (Point α) :=
  let center := r.center
  let halfWidth := r.width / 2
  let halfHeight := r.height / 2
  if isHorizontal dx dy then
    (quotientOf dy (Scalar.abs dx)).map fun slope =>
      ⟨center.x + (if 0 < dx then halfWidth else -halfWidth),
        Scalar.smaller (Scalar.larger (center.y + halfHeight * slope) r.y) r.bottom⟩
  else
    (quotientOf dx (Scalar.abs dy)).map fun slope =>
      ⟨Scalar.smaller (Scalar.larger (center.x + halfWidth * slope) r.x) r.right,
        center.y + (if 0 < dy then halfHeight else -halfHeight)⟩

/-- Moves a point of the facing edge inward. -/
def inset (dx dy : α) (p : Point α) : Point α :=
  if isHorizontal dx dy then ⟨p.x + (if 0 < dx then -borderInset else borderInset), p.y⟩
  else ⟨p.x, p.y + (if 0 < dy then -borderInset else borderInset)⟩

/-- Where the connector from one box to another leaves the first. -/
def connectionPoint (source target : Rect α) (subject : Option String) :
    Except (Failure α) (Point α) := do
  checkFinite subject source.numbers
  checkFinite subject target.numbers
  let dx := target.center.x - source.center.x
  let dy := target.center.y - source.center.y
  if dx == 0 && dy == 0 then
    .error (.geometry .sharedCenter subject [source.center.x, source.center.y])
  else do
    let edge ← source.edgePoint dx dy
    let point := inset dx dy edge
    checkFinite subject [point.x, point.y]
    return point

end EntityDiagram
