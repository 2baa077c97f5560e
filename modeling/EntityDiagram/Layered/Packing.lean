import EntityDiagram.Plane

/-! Components side by side, from the left, with the same gap everywhere; what is not connected
stands in a row underneath. Where boxes stand inside their component does not matter here. -/
namespace EntityDiagram.Layered

/-- A named box and its center inside its component. -/
structure Placed (α : Type) where
  name : String
  size : Size α
  center : Point α
  deriving DecidableEq, Repr

namespace Placed

variable {α : Type} [Scalar α]

def left (p : Placed α) : α := p.center.x - p.size.width / 2

def right (p : Placed α) : α := p.center.x + p.size.width / 2

def top (p : Placed α) : α := p.center.y - p.size.height / 2

def bottom (p : Placed α) : α := p.center.y + p.size.height / 2

end Placed

variable {α : Type} [Scalar α]

/-- The space that a component takes. -/
def extent (component : List (Placed α)) : Size α :=
  ⟨Scalar.greatestOf (component.map Placed.right) - Scalar.leastOf (component.map Placed.left),
    Scalar.greatestOf (component.map Placed.bottom) - Scalar.leastOf (component.map Placed.top)⟩

/-- Moves a component so that its top left corner is at a point. -/
def moveTo (x y : α) (component : List (Placed α)) : List (String × Point α) :=
  let left := Scalar.leastOf (component.map Placed.left)
  let top := Scalar.leastOf (component.map Placed.top)
  component.map fun p => (p.name, ⟨p.left - left + x, p.top - top + y⟩)

/-- Corners of boxes, and the height below all of them. -/
structure Packed (α : Type) where
  corners : List (String × Point α)
  bottom : α

/-- Components from a place rightward, all at the same height. -/
def packFrom (padding : α) (x bottom : α) : List (List (Placed α)) → Packed α
  | [] => ⟨[], bottom⟩
  | component :: rest =>
    let size := extent component
    let others := packFrom padding (x + (size.width + padding))
      (Scalar.larger bottom (padding + size.height)) rest
    ⟨moveTo x padding component ++ others.corners, others.bottom⟩

/-- Corners in the order in which they are found, and what kept the others from being found, if
anything did. -/
structure Found (α : Type) where
  corners : List (String × Point α)
  result : Except ArithmeticFault Unit

/-- The place after a box of a row. -/
def nextPlace (padding x width : α) : Except ArithmeticFault α := do
  let step ← Scalar.sum width padding
  Scalar.sum x step

/-- A row of boxes from a place rightward. It ends with a box after which no place can be found,
even if that is the last one. -/
def row (padding x y : α) : List (String × Size α) → Found α
  | [] => ⟨[], .ok ()⟩
  | (name, size) :: rest =>
    match nextPlace padding x size.width with
    | .error fault => ⟨[(name, ⟨x, y⟩)], .error fault⟩
    | .ok next =>
      let others := row padding next y rest
      ⟨(name, ⟨x, y⟩) :: others.corners, others.result⟩

/-- Components, and the row of single boxes underneath; without components the row comes first. The
padding must fit a measurement, as the places of components do, unless there are no boxes at all. -/
def pack (padding : α) (components : List (List (Placed α))) (singles : List (String × Size α)) :
    Found α :=
  if components.isEmpty && singles.isEmpty then ⟨[], .ok ()⟩
  else
    match Scalar.measured padding with
    | .error fault => ⟨[], .error fault⟩
    | .ok margin =>
      let packed := packFrom padding margin margin components
      let y := if components.isEmpty then margin else packed.bottom + padding
      let found := row padding margin y singles
      ⟨packed.corners ++ found.corners, found.result⟩

end EntityDiagram.Layered
