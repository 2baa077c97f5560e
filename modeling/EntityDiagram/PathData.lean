import EntityDiagram.Decimal
import EntityDiagram.Plane

/-! Polylines as drawing commands. A step along an axis names one coordinate only, so the pen keeps
the other. -/
namespace EntityDiagram

inductive PathCommand (α : Type) where
  | moveTo (x y : α)
  | horizontal (x : α)
  | vertical (y : α)
  | lineTo (x y : α)
  deriving DecidableEq, Repr

namespace PathCommand

variable {α : Type} [Scalar α]

/-- The command from one point to the next. A step to the same point counts as horizontal. -/
def between (a b : Point α) : PathCommand α :=
  if b.y == a.y then horizontal b.x
  else if b.x == a.x then vertical b.y
  else lineTo b.x b.y

/-- The commands through the points that follow a point. -/
def follow (a : Point α) : List (Point α) → List (PathCommand α)
  | [] => []
  | b :: rest => between a b :: follow b rest

def ofPoints : List (Point α) → List (PathCommand α)
  | [] => []
  | a :: rest => moveTo a.x a.y :: follow a rest

def text : PathCommand α → String
  | moveTo x y => "M " ++ Scalar.text x ++ " " ++ Scalar.text y
  | horizontal x => "H " ++ Scalar.text x
  | vertical y => "V " ++ Scalar.text y
  | lineTo x y => "L " ++ Scalar.text x ++ " " ++ Scalar.text y

end PathCommand

/-- The text of a polyline. -/
def pathData {α : Type} [Scalar α] (points : List (Point α)) : String :=
  " ".intercalate ((PathCommand.ofPoints points).map PathCommand.text)

end EntityDiagram
