import EntityDiagram.Measure
import EntityDiagram.Primitive

/-! Where the rows of a box stand: under the header one below the other, the key rows first, with a
gap for the separator before the others. -/
namespace EntityDiagram

/-- A row of text and the height at which its band begins. -/
structure PlacedRow (α : Type) where
  content : String
  top : α
  deriving DecidableEq, Repr

namespace PlacedRow

variable {α : Type} [Scalar α]

/-- Rows one below the other. -/
def stack (top : α) : List String → List (PlacedRow α)
  | [] => []
  | row :: rest => ⟨row, top⟩ :: stack (top + Measure.rowHeight) rest

/-- The height below a stack of rows. -/
def stackBottom (top : α) : List String → α
  | [] => top
  | _ :: rest => stackBottom (top + Measure.rowHeight) rest

end PlacedRow

namespace Box

variable {α : Type} [Scalar α]

def rowsTop (b : Box α) : α := b.rect.y + Measure.headerHeight

def placedKeyRows (b : Box α) : List (PlacedRow α) := PlacedRow.stack b.rowsTop b.keyRows

def keyRowsBottom (b : Box α) : α := PlacedRow.stackBottom b.rowsTop b.keyRows

/-- The height of the separator, for a box with rows. -/
def separator? (b : Box α) : Option α :=
  if b.keyRows.isEmpty && b.otherRows.isEmpty then none
  else some (b.keyRowsBottom + Measure.separatorHeight / 2)

def placedOtherRows (b : Box α) : List (PlacedRow α) :=
  PlacedRow.stack (b.keyRowsBottom + Measure.separatorHeight) b.otherRows

end Box

end EntityDiagram
