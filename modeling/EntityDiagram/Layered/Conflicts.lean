import EntityDiagram.Layered.Slots

/-! Conflicts between edges of adjacent layers: an edge that crosses the segment between two bends
of one long edge gives way to it. -/
namespace EntityDiagram.Layered

variable {ν : Type} [DecidableEq ν]

/-- The edges from the pending slots up to places outside two bounds. -/
def outside (above : Slot ν → List (Slot ν)) (before : List (Slot ν)) (low high : Nat)
    (pending : List (Slot ν)) : List (Slot ν × Slot ν) :=
  pending.flatMap fun s =>
    ((above s).filter fun u => before.idxOf u < low || high < before.idxOf u).map (·, s)

/-- Scans a layer from left to right. A bend below another bend bounds the places to its left and to
its right; a bend at the end of the layer bounds what is left before it. -/
def layerConflicts (above : Slot ν → List (Slot ν)) (before : List (Slot ν)) (low : Nat)
    (pending : List (Slot ν)) : List (Slot ν) → List (Slot ν × Slot ν)
  | [] => []
  | s :: rest =>
    let pending := pending ++ [s]
    let inner? := if s.isBend then (above s).find? Slot.isBend else none
    match inner? with
    | some upper =>
      let high := before.idxOf upper
      outside above before low high pending ++ layerConflicts above before high [] rest
    | none =>
      if s.isBend && rest.isEmpty then outside above before low (before.length - 1) pending
      else layerConflicts above before low pending rest

/-- The conflicts between all pairs of adjacent layers, the upper slot first. -/
def conflicts (above : Slot ν → List (Slot ν)) :
    List (List (Slot ν)) → List (Slot ν × Slot ν)
  | before :: layer :: rest =>
    layerConflicts above before 0 [] layer ++ conflicts above (layer :: rest)
  | _ => []

end EntityDiagram.Layered
