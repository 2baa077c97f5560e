import EntityDiagram.Layered.Columns
import EntityDiagram.Plane

/-! The layered layout of one connected component: the center of every vertex. Layers follow each
other downward, each as high as its highest slot. -/
namespace EntityDiagram.Layered

variable {ν : Type} [DecidableEq ν] {α : Type} [Scalar α]

/-- The gaps between the slots of a layer and between layers. -/
structure Gaps (α : Type) where
  slot : α
  layer : α
  deriving DecidableEq, Repr

/-- The size of bends: the middle width and the middle height of the vertices. -/
def bendSize (size : ν → Size α) (vertices : List ν) : Size α :=
  ⟨upperMedian (vertices.map fun v => (size v).width),
    upperMedian (vertices.map fun v => (size v).height)⟩

/-- The size of a slot. -/
def slotSize (size : ν → Size α) (bend : Size α) : Slot ν → Size α
  | .vertex v => size v
  | .bend .. => bend

/-- Half the height of a layer. -/
def halfHeight (height : Slot ν → α) (layer : List (Slot ν)) : α :=
  Scalar.greatestOf (layer.map fun s => height s / 2)

/-- The vertical centers of layers, given their half heights, from a height downward. -/
def layerCenters (gap : α) (top : α) : List α → List α
  | [] => []
  | half :: rest => (top + half) :: layerCenters gap (top + (2 * half + gap)) rest

/-- The vertical centers of all layers. -/
def rows (gap : α) (height : Slot ν → α) (layers : List (List (Slot ν))) : List α :=
  layerCenters gap 0 (layers.map (halfHeight height))

/-- The centers of the vertices of a component, in the order of its vertices. -/
def centers (gaps : Gaps α) (size : ν → Size α) (component : Network ν) : List (Point α) :=
  let l := Layering.ofNetwork component
  let layers := l.ordered α
  let slot := slotSize size (bendSize size component.vertices)
  let distance (a b : Slot ν) : α := gaps.slot + ((slot a).width + (slot b).width) / 2
  let columns := FourColumns.ofLayers l layers distance
  let heights := rows gaps.layer (fun s => (slot s).height) layers
  component.vertices.map fun v => ⟨columns.x (.vertex v), heights[l.rank v]?.getD 0⟩

@[simp] theorem length_centers (gaps : Gaps α) (size : ν → Size α) (component : Network ν) :
    (centers gaps size component).length = component.vertices.length := by simp [centers]

/-- A way to lay out connected components: a center for every vertex. -/
class ComponentLayout (α : Type) where
  centersOf : Gaps α → (String → Size α) → Network String → List (Point α)
  length_centersOf (gaps : Gaps α) (size : String → Size α) (component : Network String) :
    (centersOf gaps size component).length = component.vertices.length

/-- The layout that the program uses. -/
instance : ComponentLayout α := ⟨centers, length_centers⟩

end EntityDiagram.Layered
