import EntityDiagram.Layered.Slots
import EntityDiagram.Scalar
import EntityDiagram.Sorting

/-! Orders of slots inside layers. A sweep sorts each layer by the mean place of its neighbors in
the layer before it and exchanges adjacent slots where that makes fewer edges cross. -/
namespace EntityDiagram.Layered

variable {ν : Type} [DecidableEq ν]

/-- The number of pairs in which the greater number stands first. -/
def inversions : List Nat → Nat
  | [] => 0
  | n :: rest => rest.countP (· < n) + inversions rest

/-- The places of neighbors in a layer. -/
def places (neighbors : Slot ν → List (Slot ν)) (layer : List (Slot ν)) (s : Slot ν) : List Nat :=
  (neighbors s).map layer.idxOf

/-- The crossings of the edges between a layer and the layer before it. -/
def crossings (neighbors : Slot ν → List (Slot ν)) (before layer : List (Slot ν)) : Nat :=
  inversions (layer.flatMap fun s => (places neighbors before s).mergeSort)

section

variable {α : Type} [Scalar α]

/-- The distance of adjacent slots in a layer scaled to unit width. -/
def spacing (layer : List (Slot ν)) : α :=
  if layer.length = 1 then 1 else 1 / Scalar.ofInt (layer.length - 1 : Int)

/-- The place of a slot in a layer scaled to unit width. -/
def scaledPlace (layer : List (Slot ν)) (place : Nat) : α :=
  Scalar.ofInt (place : Int) * spacing layer

/-- The mean place of the neighbors of a slot, or its own place when it has none. -/
def meanPlace (neighbors : Slot ν → List (Slot ν)) (before layer : List (Slot ν))
    (s : Slot ν) : α :=
  match places neighbors before s with
  | [] => scaledPlace layer (layer.idxOf s)
  | ps =>
    (ps.map (scaledPlace before)).foldl (fun sum place : α => sum + place) 0 /
      Scalar.ofInt (ps.length : Int)

/-- Sorts by a number; equal numbers keep their order. -/
def sortBy {β : Type} (number : β → α) (l : List β) : List β :=
  (Sorting.sorted (fun a b => decide (a.1 < b.1)) (l.map fun b => (number b, b))).map (·.2)

end

/-- The pairs of a place from the first list and a smaller one from the second. -/
def pairsAbove : List Nat → List Nat → Nat
  | [], _ => 0
  | p :: rest, qs => qs.countP (· < p) + pairsAbove rest qs

/-- Exchanges adjacent slots where fewer edges cross then, from left to right; the slot in hand
moves on. The number of crossings that are left is counted along. -/
def exchange (place : Slot ν → List Nat) (inHand : Slot ν) : List (Slot ν) → List (Slot ν) × Nat
  | [] => ([inHand], 0)
  | next :: rest =>
    let inOrder := pairsAbove (place inHand) (place next)
    let exchanged := (place inHand).length * (place next).length - inOrder
    if exchanged < inOrder then
      let (others, count) := exchange place inHand rest
      (next :: others, exchanged + count)
    else
      let (others, count) := exchange place next rest
      (inHand :: others, inOrder + count)

/-- Orders one layer against the layer before it, with the number of crossings left. A layer
without crossings stays as it is. -/
def orderLayer (α : Type) [Scalar α] (neighbors : Slot ν → List (Slot ν))
    (before layer : List (Slot ν)) : List (Slot ν) × Nat :=
  if crossings neighbors before layer = 0 then (layer, 0)
  else
    match sortBy (meanPlace (α := α) neighbors before layer) layer with
    | [] => ([], 0)
    | first :: rest => exchange (places neighbors before) first rest

/-- Orders layers one after the other, each against the one before it. -/
def sweep (α : Type) [Scalar α] (neighbors : Slot ν → List (Slot ν)) (before : List (Slot ν)) :
    List (List (Slot ν)) → List (List (Slot ν)) × Nat
  | [] => ([], 0)
  | layer :: rest =>
    let (layer, count) := orderLayer α neighbors before layer
    let (others, counts) := sweep α neighbors layer rest
    (layer :: others, count + counts)

/-- The order of all layers: downward; if crossings are left, upward; and downward again. -/
def Layering.ordered (α : Type) [Scalar α] (l : Layering ν) : List (List (Slot ν)) :=
  let (down, count) := sweep α l.above [] l.layers
  let middle := if 0 < count then (sweep α l.below [] down.reverse).1.reverse else down
  (sweep α l.above [] middle).1

end EntityDiagram.Layered
