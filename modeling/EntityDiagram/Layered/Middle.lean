import EntityDiagram.Scalar
import EntityDiagram.Sorting

/-! Middle numbers of a list. Undefined numbers compare with nothing, so that the comparisons of the
sort decide where they stand. -/
namespace EntityDiagram.Layered

variable {α : Type} [Scalar α]

/-- The numbers in ascending order. -/
def ascending (numbers : List α) : List α := Sorting.sorted (fun a b => decide (a < b)) numbers

/-- The upper one of the middle numbers of a list, zero for the empty list. -/
def upperMedian (numbers : List α) : α := (ascending numbers)[numbers.length / 2]?.getD 0

/-- The mean of the two middle numbers of four. -/
def middleMean (numbers : List α) : α :=
  match ascending numbers with
  | [_, a, b, _] => (a + b) / 2
  | _ => 0

end EntityDiagram.Layered
