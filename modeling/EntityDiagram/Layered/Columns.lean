import EntityDiagram.Layered.Blocks
import EntityDiagram.Layered.Conflicts
import EntityDiagram.Layered.Middle

/-! Horizontal places of slots. Blocks are pushed as far left as their left neighbors allow; blocks
that rest on each other form a class, and classes are moved apart as a whole. This is done in four
directions, and the two middle answers are averaged. -/
namespace EntityDiagram.Layered

variable {ν : Type} [DecidableEq ν] {α : Type} [Scalar α]

/-- What is known while blocks are placed, by their first slots: places, the class each block
belongs to, and how far a class must move. A class that is not listed has nothing in its way. -/
structure Compaction (ν α : Type) where
  place : List (Slot ν × α)
  sink : List (Slot ν × Slot ν)
  shift : List (Slot ν × α)

/-- Sets what belongs to a slot. -/
def assign {β : Type} (s : Slot ν) (b : β) : List (Slot ν × β) → List (Slot ν × β)
  | [] => [(s, b)]
  | (other, old) :: rest => if other = s then (s, b) :: rest else (other, old) :: assign s b rest

namespace Compaction

def start : Compaction ν α := ⟨[], [], []⟩

def placeOf (c : Compaction ν α) (root : Slot ν) : α := (c.place.lookup root).getD 0

def sinkOf (c : Compaction ν α) (root : Slot ν) : Slot ν := (c.sink.lookup root).getD root

def setPlace (c : Compaction ν α) (root : Slot ν) (x : α) : Compaction ν α :=
  { c with place := assign root x c.place }

/-- Joins the class of a block to the class of another, unless it already belongs to one. -/
def joinSink (c : Compaction ν α) (root other : Slot ν) : Compaction ν α :=
  if c.sinkOf root = root then { c with sink := assign root (c.sinkOf other) c.sink } else c

/-- Keeps the smallest shift of a class. A shift that is not below infinity moves nothing. -/
def lowerShift (c : Compaction ν α) (sink : Slot ν) (x : α) : Compaction ν α :=
  match c.shift.lookup sink with
  | none => if Scalar.isBelowInfinity x then { c with shift := assign sink x c.shift } else c
  | some old => { c with shift := assign sink (Scalar.smaller old x) c.shift }

/-- Keeps a block at a distance from a block to its left: within a class by its place, between two
classes by a shift. -/
def keepDistance (c : Compaction ν α) (root other : Slot ν) (distance : α) : Compaction ν α :=
  let c := c.joinSink root other
  if c.sinkOf root = c.sinkOf other then
    c.setPlace root (Scalar.larger (c.placeOf root) (c.placeOf other + distance))
  else
    c.lowerShift (c.sinkOf other) (c.placeOf root - (c.placeOf other + distance))

end Compaction

/-- The blocks to the left of the slots of a block, and their distances, in the order of its
slots. -/
def obstacles (distance : Slot ν → Slot ν → α) (layers : List (List (Cell ν))) (root : Slot ν) :
    List (Slot ν × α) :=
  layers.flatMap fun cells =>
    (cells.zip (cells.drop 1)).filterMap fun (left, c) =>
      if c.root = root then some (left.root, distance left.slot c.slot) else none

/-- Places a block and, before it, the blocks to the left of its slots. Blocks that wait for each
other are all different, so a depth above the number of blocks is never used up. -/
def placeBlock (obstaclesOf : Slot ν → List (Slot ν × α)) :
    Nat → Compaction ν α → Slot ν → Compaction ν α
  | 0, c, _ => c
  | depth + 1, c, root =>
    if (c.place.lookup root).isSome then c
    else
      (obstaclesOf root).foldl
        (fun c obstacle =>
          (placeBlock obstaclesOf depth c obstacle.1).keepDistance root obstacle.1 obstacle.2)
        (c.setPlace root 0)

/-- Blocks and their places in one of the four directions. -/
structure Columns (ν α : Type) where
  layers : List (List (Cell ν))
  compaction : Compaction ν α

/-- Places all blocks of some layers, which are given in the order in which they are aligned. -/
def Columns.ofLayers (neighbors : Slot ν → List (Slot ν)) (inConflict : Slot ν → Slot ν → Bool)
    (distance : Slot ν → Slot ν → α) (layers : List (List (Slot ν))) : Columns ν α :=
  let aligned := alignLayers neighbors inConflict [] layers
  let roots := roots aligned
  ⟨aligned, roots.foldl (placeBlock (obstacles distance aligned) (roots.length + 1))
    Compaction.start⟩

namespace Columns

/-- The place of the block of a slot, moved with its class. -/
def x (c : Columns ν α) (s : Slot ν) : α :=
  let root := rootOf c.layers s
  let place := c.compaction.placeOf root
  match c.compaction.shift.lookup (c.compaction.sinkOf root) with
  | none => place
  | some shift => place + shift

/-- The same for layers that were turned round, so that places count leftward. -/
def turnedX (c : Columns ν α) (s : Slot ν) : α :=
  let root := rootOf c.layers s
  let place := c.compaction.placeOf root
  let leftward := if place == 0 then place else -place
  match c.compaction.shift.lookup (c.compaction.sinkOf root) with
  | none => leftward
  | some shift => leftward + -shift

end Columns

/-- Blocks and their places in all four directions: downward and upward, to the right and to the
left. -/
structure FourColumns (ν α : Type) where
  downRight : Columns ν α
  downLeft : Columns ν α
  upRight : Columns ν α
  upLeft : Columns ν α

namespace FourColumns

/-- Places the slots of ordered layers at a distance that depends on the two slots. -/
def ofLayers (l : Layering ν) (layers : List (List (Slot ν))) (distance : Slot ν → Slot ν → α) :
    FourColumns ν α :=
  let crossed := conflicts l.above layers
  let inConflict (u v : Slot ν) := crossed.contains (u, v) || crossed.contains (v, u)
  let turned := layers.map List.reverse
  { downRight := Columns.ofLayers l.above inConflict distance layers
    downLeft := Columns.ofLayers l.above inConflict distance turned
    upRight := Columns.ofLayers l.below inConflict distance layers.reverse
    upLeft := Columns.ofLayers l.below inConflict distance turned.reverse }

/-- The horizontal center of a slot. -/
def x (c : FourColumns ν α) (s : Slot ν) : α :=
  middleMean [c.downRight.x s, c.downLeft.turnedX s, c.upRight.x s, c.upLeft.turnedX s]

end FourColumns

end EntityDiagram.Layered
