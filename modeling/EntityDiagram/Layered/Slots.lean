import EntityDiagram.Network

/-! Layers of a network. An edge over several layers takes a slot in every layer that it crosses, so
neighbors always stand in adjacent layers. -/
namespace EntityDiagram.Layered

/-- A place in a layer: a vertex, or the bend of a long edge. -/
inductive Slot (ν : Type) where
  | vertex (v : ν)
  | bend (edge : ν × ν) (rank : Nat)
  deriving DecidableEq, Repr

def Slot.isBend {ν : Type} : Slot ν → Bool
  | vertex _ => false
  | bend .. => true

/-- The edges of a network in their direction without cycles, and its fronts. -/
structure Layering (ν : Type) where
  edges : List (ν × ν)
  fronts : List (List ν)
  deriving DecidableEq, Repr

namespace Layering

variable {ν : Type} [DecidableEq ν]

def ofNetwork (n : Network ν) : Layering ν := ⟨n.oriented.edges, n.fronts⟩

/-- The number of the layer of a vertex. -/
def rank (l : Layering ν) (v : ν) : Nat := l.fronts.findIdx (v ∈ ·)

/-- The edges that cross a layer. -/
def crossing (l : Layering ν) (k : Nat) : List (ν × ν) :=
  l.edges.filter fun e => l.rank e.1 < k ∧ k < l.rank e.2

/-- The slots of each layer: its vertices, then its bends. -/
def layers (l : Layering ν) : List (List (Slot ν)) :=
  l.fronts.mapIdx fun k front => front.map .vertex ++ (l.crossing k).map (.bend · k)

/-- The slot of an edge in the layer after its beginning, or before its end: the other end itself
when the edge crosses no layer there. -/
def slotOf (l : Layering ν) (edge : ν × ν) (rank : Nat) : Slot ν :=
  if rank = l.rank edge.1 then .vertex edge.1
  else if rank = l.rank edge.2 then .vertex edge.2
  else .bend edge rank

/-- The neighbors in the layer above, in order of edges. -/
def above (l : Layering ν) : Slot ν → List (Slot ν)
  | .vertex v => (l.edges.filter (·.2 = v)).map fun e => l.slotOf e (l.rank v - 1)
  | .bend e rank => [l.slotOf e (rank - 1)]

/-- The neighbors in the layer below, in order of edges. -/
def below (l : Layering ν) : Slot ν → List (Slot ν)
  | .vertex v => (l.edges.filter (·.1 = v)).map fun e => l.slotOf e (l.rank v + 1)
  | .bend e rank => [l.slotOf e (rank + 1)]

example : (Layering.mk [(1, 2), (2, 3), (1, 3)] [[1], [2], [3]]).layers =
    [[.vertex 1], [.vertex 2, .bend (1, 3) 1], [.vertex 3]] := by decide

end Layering

end EntityDiagram.Layered
