/-! Depth-first search of a directed graph given by successor lists. The search keeps the vertices
it has finished, newest first, and every edge that leads back onto the path it came along: a graph
has a cycle exactly when such an edge turns up. -/
namespace EntityDiagram

/-- An edge from the first vertex of a search path back to a vertex of that path. -/
structure Closing (ν : Type) where
  path : List ν
  target : ν
  deriving DecidableEq, Repr

/-- The record of a search. -/
structure DepthFirst (ν : Type) where
  finished : List ν
  closings : List (Closing ν)
  deriving DecidableEq, Repr

namespace DepthFirst

variable {ν : Type} [DecidableEq ν]

def start : DepthFirst ν := ⟨[], []⟩

/-- Visits a vertex reached along a path, newest vertex first. A path repeats no vertex, so a depth
above the number of vertices is never used up. -/
def visit (successors : ν → List ν) : Nat → List ν → DepthFirst ν → ν → DepthFirst ν
  | 0, _, search, _ => search
  | depth + 1, path, search, v =>
    if v ∈ path then { search with closings := search.closings ++ [⟨path, v⟩] }
    else if v ∈ search.finished then search
    else
      let inner := (successors v).foldl (visit successors depth (v :: path)) search
      { inner with finished := v :: inner.finished }

/-- Searches from every root in turn; `vertices` holds every vertex that can be reached. -/
def run (vertices : List ν) (successors : ν → List ν) (roots : List ν) : DepthFirst ν :=
  roots.foldl (visit successors (vertices.length + 1) []) start

end DepthFirst

/-- The cycle that a closing edge completes, from its target back to it. -/
def Closing.cycle {ν : Type} [DecidableEq ν] (c : Closing ν) : List ν :=
  c.target :: ((c.path.takeWhile (· ≠ c.target)).reverse ++ [c.target])

/-- The edge itself. -/
def Closing.edge? {ν : Type} (c : Closing ν) : Option (ν × ν) :=
  c.path.head?.map fun v => (v, c.target)

example : (DepthFirst.run [1, 2, 3] (fun n => if n = 3 then [2] else [n + 1]) [1]).closings.map
    Closing.cycle = [[2, 3, 2]] := by decide

end EntityDiagram
