import EntityDiagram.Primitive

/-! The canvas of a drawing: it begins at the origin and reaches beyond every primitive. -/
namespace EntityDiagram

variable {α : Type} [Scalar α]

/-- The corner opposite to a corner. -/
def oppositeCorner (corner : Point α) (width height : α) : Except ArithmeticFault (Point α) := do
  let x ← Scalar.sum corner.x width
  let y ← Scalar.sum corner.y height
  return ⟨x, y⟩

/-- The points that a canvas must reach to contain a primitive. -/
def Primitive.reach : Primitive α → Except ArithmeticFault (List (Point α))
  | box b => (oppositeCorner ⟨b.rect.x, b.rect.y⟩ b.rect.width b.rect.height).map ([·])
  | path points _ => .ok points
  | text point .. => .ok [point]
  | circle center radius _ => (oppositeCorner center radius radius).map ([·])
  | underline a b => .ok [a, b]
  | optionalMarker corner side => (oppositeCorner corner side side).map ([·])

/-- The greatest of some numbers and zero. The zero is a measurement, as coordinates are. -/
def greatest (numbers : List α) : α := numbers.foldl Scalar.larger (Scalar.approx 0)

/-- The space left free to the right of a drawing and below it. -/
def canvasPadding : α := 40

def canvasSize (primitives : List (Primitive α)) (padding : α) :
    Except ArithmeticFault (Size α) := do
  let points := (← primitives.mapM Primitive.reach).flatten
  let width ← Scalar.sum (greatest (points.map (·.x))) padding
  let height ← Scalar.sum (greatest (points.map (·.y))) padding
  return ⟨width, height⟩

end EntityDiagram
