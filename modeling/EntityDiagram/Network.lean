import EntityDiagram.Network.DepthFirst

/-! Directed graphs as lists of vertices and edges: simple edges, connected components, and the
orientation without cycles that a depth-first search finds. -/
namespace EntityDiagram

/-- Vertices and the edges between them, both in order of declaration. -/
structure Network (ν : Type) where
  vertices : List ν
  edges : List (ν × ν)
  deriving DecidableEq, Repr

variable {ν : Type} [DecidableEq ν]

/-- The edges between two different vertices of the list, each pair of vertices joined once: what
joins a pair again, in either direction, is left out. -/
def simpleEdges (vertices : List ν) (kept : List (ν × ν)) : List (ν × ν) → List (ν × ν)
  | [] => []
  | (u, v) :: rest =>
    if u = v ∨ (u, v) ∈ kept ∨ (v, u) ∈ kept ∨ u ∉ vertices ∨ v ∉ vertices then
      simpleEdges vertices kept rest
    else (u, v) :: simpleEdges vertices ((u, v) :: kept) rest

/-- Joins the classes of the two ends of an edge: the class of the second end goes to the end of
the class of the first. -/
def joinClasses (classes : List (List ν)) (edge : ν × ν) : List (List ν) :=
  match classes.find? (edge.1 ∈ ·), classes.find? (edge.2 ∈ ·) with
  | some a, some b =>
    if edge.2 ∈ a then classes
    else (classes.filter (edge.2 ∉ ·)).map fun c => if edge.1 ∈ c then c ++ b else c
  | _, _ => classes

namespace Network

/-- The classes of connected vertices. -/
def classes (n : Network ν) : List (List ν) :=
  n.edges.foldl joinClasses (n.vertices.map fun v => [v])

/-- The part of a network on some of its vertices. -/
def restrict (n : Network ν) (vertices : List ν) : Network ν :=
  ⟨vertices, n.edges.filter fun e => e.1 ∈ vertices ∧ e.2 ∈ vertices⟩

/-- The connected components, each with its vertices in the order in which they were joined. -/
def components (n : Network ν) : List (Network ν) := n.classes.map n.restrict

def successors (n : Network ν) (v : ν) : List ν :=
  n.edges.filterMap fun e => if e.1 = v then some e.2 else none

def predecessors (n : Network ν) (v : ν) : List ν :=
  n.edges.filterMap fun e => if e.2 = v then some e.1 else none

/-- The vertices that no edge leads to. -/
def roots (n : Network ν) : List ν := n.vertices.filter fun v => (n.predecessors v).isEmpty

/-- The edges that close a cycle in a search from the roots and then from what they leave. -/
def feedback (n : Network ν) : List (ν × ν) :=
  (DepthFirst.run n.vertices n.successors (n.roots ++ n.vertices)).closings.filterMap Closing.edge?

/-- Turns every feedback edge round. -/
def oriented (n : Network ν) : Network ν :=
  let feedback := n.feedback
  { n with edges := n.edges.map fun e => if e ∈ feedback then e.swap else e }

/-- The vertices that become ready while a front is finished one vertex after the other: each
stands with the last of its predecessors. -/
def readyAfter (n : Network ν) (finished : List ν) : List ν → List ν
  | [] => []
  | v :: rest =>
    let finished := v :: finished
    ((n.successors v).filter fun w => (n.predecessors w).all (· ∈ finished)) ++
      n.readyAfter finished rest

/-- Successive fronts of ready vertices. A network without cycles is exhausted within as many
fronts as it has vertices. -/
def frontsFrom (n : Network ν) : Nat → List ν → List ν → List (List ν)
  | 0, _, _ => []
  | fuel + 1, finished, front =>
    if front.isEmpty then []
    else front :: n.frontsFrom fuel (front.reverse ++ finished) (n.readyAfter finished front)

/-- The fronts of the orientation without cycles: the roots and those that became roots by it, then
what follows. -/
def fronts (n : Network ν) : List (List ν) :=
  let o := n.oriented
  let first := n.roots ++ o.roots.filter (· ∉ n.roots)
  o.frontsFrom n.vertices.length [] first

example : (Network.mk [1, 2, 3] [(1, 2), (2, 3), (1, 3)]).fronts = [[1], [2], [3]] := by decide
example : (Network.mk [1, 2, 3] [(1, 2), (2, 3), (3, 1)]).feedback = [(3, 1)] := by decide

end Network

end EntityDiagram
