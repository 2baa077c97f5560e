import EntityDiagram.Scalar

/-! Points, sizes and rectangles of a plane whose second coordinate grows downward. -/
namespace EntityDiagram

structure Point (α : Type) where
  x : α
  y : α
  deriving DecidableEq, Repr

structure Size (α : Type) where
  width : α
  height : α
  deriving DecidableEq, Repr

/-- An axis-aligned rectangle given by its top left corner and its size. -/
structure Rect (α : Type) where
  x : α
  y : α
  width : α
  height : α
  deriving DecidableEq, Repr

namespace Rect

variable {α : Type} [Scalar α]

def center (r : Rect α) : Point α := ⟨r.x + r.width / 2, r.y + r.height / 2⟩

def right (r : Rect α) : α := r.x + r.width

def bottom (r : Rect α) : α := r.y + r.height

/-- The four numbers in the order x, y, width, height. -/
def numbers (r : Rect α) : List α := [r.x, r.y, r.width, r.height]

end Rect

end EntityDiagram
