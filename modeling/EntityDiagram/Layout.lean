import EntityDiagram.Layered.Component
import EntityDiagram.Layered.Packing
import EntityDiagram.Layout.Grid

/-! Placing the entities of a diagram: on a grid, or in layers with referenced entities above
referencing ones and generic entities above their categories. -/
namespace EntityDiagram

open Layered

namespace Diagram

variable {α : Type} [Scalar α]

/-- What joins entities, the upper one first. -/
def connections (s : Schema) : List (String × String) :=
  s.relationships.map (fun r => (r.target.entity, r.source.entity)) ++
    s.generalizations.flatMap fun g => g.categories.map (g.generic, ·)

/-- Every name at its first occurrence. -/
def vertexNames (d : Diagram α) : List String := (d.nodes.map (·.name)).eraseDups

/-- The network of entities: different entities are joined by at most one edge. -/
def network (d : Diagram α) : Network String :=
  let vertices := d.vertexNames
  ⟨vertices, simpleEdges vertices [] (connections d.schema)⟩

/-- The size that the layout gives to an entity. Where a name occurs again the last entity
counts. -/
def layoutSize (d : Diagram α) (o : Options) (name : String) : Size α :=
  let cell : Size α := ⟨Scalar.ofInt o.cellWidthSize, Scalar.ofInt o.cellHeightSize⟩
  ((d.nodes.reverse.find? (·.name = name)).bind (·.bounds)).getD cell

/-- The number of the last entity of a name. -/
def lastIndex (d : Diagram α) (name : String) : Nat :=
  d.nodes.length - 1 - d.nodes.reverse.findIdx (·.name = name)

/-- The boxes of a component, given their centers. -/
def placedComponent (d : Diagram α) (o : Options) (component : Network String)
    (centers : List (Point α)) : List (Placed α) :=
  (component.vertices.zip centers).map fun (v, center) => ⟨v, d.layoutSize o v, center⟩

/-- The entities that nothing joins to another, in order of declaration. -/
def singles (d : Diagram α) : List String :=
  ((d.network.components.filter (·.vertices.length = 1)).flatMap (·.vertices)).mergeSort
    fun a b => d.lastIndex a ≤ d.lastIndex b

/-- The corners of all entities, given the centers inside each component. -/
def packedCorners (d : Diagram α) (o : Options) (centers : Network String → List (Point α)) :
    Found α :=
  let joined := d.network.components.filter (·.vertices.length ≠ 1)
  pack (Scalar.ofInt o.paddingSize) (joined.map fun c => d.placedComponent o c (centers c))
    (d.singles.map fun name => (name, d.layoutSize o name))

/-- Moves entities to given corners. -/
def moveTo (d : Diagram α) (corners : List (String × Point α)) : Diagram α :=
  corners.foldl (fun d corner => d.setPosition corner.1 (some corner.2)) d

/-- A diagram after an arrangement, and whether that came to its end. One that did not has moved the
entities whose corners were found. -/
abbrev Arranged (α : Type) := Diagram α × Except ArithmeticFault Unit

/-- Places entities in layers, given the centers inside each component. -/
def layeredBy (d : Diagram α) (o : Options) (centers : Network String → List (Point α)) :
    Arranged α :=
  let found := d.packedCorners o centers
  (d.moveTo found.corners, found.result)

/-- Places entities in layers. -/
def layered [ComponentLayout α] (d : Diagram α) (o : Options) : Arranged α :=
  let gaps : Gaps α := ⟨Scalar.ofInt o.nodeGap, Scalar.ofInt o.layerGap⟩
  d.layeredBy o (ComponentLayout.centersOf gaps (d.layoutSize o))

/-- Places entities as the options say. -/
def arrange [ComponentLayout α] (d : Diagram α) (o : Options) : Arranged α :=
  match o.arrangement with
  | .grid => (d.grid o, .ok ())
  | .layered => d.layered o

end Diagram

end EntityDiagram
