import EntityDiagram.Diagram
import EntityDiagram.Layout.Options
import EntityDiagram.Scalar.Double

/-! Entities on a grid, row by row in order of declaration, in cells of one size. -/
namespace EntityDiagram

/-- The least natural number that is not below a double; zero for a double that is not finite. -/
def ceiling (x : Float) : Nat :=
  match Double.reading x with
  | .finite _ value => value.ceil.toNat
  | _ => 0

/-- The square root of the count, rounded up, and at least one. -/
def gridColumns (count : Nat) : Nat := max 1 (ceiling (Float.sqrt (Float.ofNat count)))

namespace Grid

variable {α : Type} [Scalar α]

/-- The top left corner of a cell, in whole numbers. -/
def corner (o : Options) (columns index : Nat) : Point Int :=
  ⟨o.paddingSize + (index % columns : Nat) * (o.cellWidthSize + o.paddingSize),
    o.paddingSize + (index / columns : Nat) * (o.cellHeightSize + o.paddingSize)⟩

def position (o : Options) (columns index : Nat) : Point α :=
  let p := corner o columns index
  ⟨Scalar.ofInt p.x, Scalar.ofInt p.y⟩

end Grid

/-- Places every entity in its cell. -/
def Diagram.grid {α : Type} [Scalar α] (d : Diagram α) (o : Options) : Diagram α :=
  let columns := gridColumns d.nodes.length
  { d with nodes := d.nodes.mapIdx fun index n =>
      { n with position := some (Grid.position o columns index) } }

end EntityDiagram
