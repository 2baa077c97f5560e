import EntityDiagram.Layered.Crossings

/-! Vertical blocks. Every slot is aligned with a median neighbor where no conflict and no earlier
alignment of its layer stands against it; slots that are aligned form a block. -/
namespace EntityDiagram.Layered

variable {ν : Type} [DecidableEq ν]

/-- The one or two middle members of a list. -/
def medians {β : Type} (l : List β) : List β :=
  let middle := (l.length - 1) / 2
  (l.drop middle).take (if l.length % 2 = 1 then 1 else 2)

/-- A slot and the first slot of its block. -/
structure Cell (ν : Type) where
  slot : Slot ν
  root : Slot ν
  deriving DecidableEq, Repr

section

variable (neighbors : Slot ν → List (Slot ν)) (inConflict : Slot ν → Slot ν → Bool)

/-- The first of the median neighbors of a slot that is free, and its place in the layer before.
Alignments of a layer do not cross, so it stands to the right of the last one. -/
def freeMedian? (before : List (Cell ν)) (last : Option Nat) (s : Slot ν) :
    Option (Cell ν × Nat) :=
  let places := ((neighbors s).map fun u => before.findIdx (·.slot = u)).mergeSort
  (medians places).findSome? fun place => do
    let upper ← before[place]?
    if last.all (· < place) && !inConflict upper.slot s then some (upper, place) else none

/-- Aligns the slots of a layer with the layer before it, from left to right. -/
def alignLayer (before : List (Cell ν)) (last : Option Nat) : List (Slot ν) → List (Cell ν)
  | [] => []
  | s :: rest =>
    match freeMedian? neighbors inConflict before last s with
    | none => ⟨s, s⟩ :: alignLayer before last rest
    | some (upper, place) => ⟨s, upper.root⟩ :: alignLayer before (some place) rest

/-- Aligns layers one after the other, each with the one before it. -/
def alignLayers (before : List (Cell ν)) : List (List (Slot ν)) → List (List (Cell ν))
  | [] => []
  | layer :: rest =>
    let cells := alignLayer neighbors inConflict before none layer
    cells :: alignLayers cells rest

end

/-- The first slot of the block of a slot. -/
def rootOf (layers : List (List (Cell ν))) (s : Slot ν) : Slot ν :=
  (layers.findSome? fun cells => (cells.find? (·.slot = s)).map (·.root)).getD s

/-- The first slots of all blocks. -/
def roots (layers : List (List (Cell ν))) : List (Slot ν) :=
  (layers.flatten.filter fun c => c.slot = c.root).map (·.root)

end EntityDiagram.Layered
