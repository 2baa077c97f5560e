import EntityDiagram.Sorting.Merge

/-! Sorting by merging runs. Two runs are merged when no boundary inside them lies deeper, in the
binary division of the whole list, than the boundary that comes next. Elements that are not less
than each other keep their order if the order is total. -/
namespace EntityDiagram.Sorting

variable {β : Type}

/-- A run that waits to be merged: the index at which it begins, and how deep its boundary to the
run after it lies. -/
structure Waiting (β : Type) where
  start : Nat
  depth : Nat
  run : List β

/-- The number of binary digits up to the first in which two fractions of a size differ. -/
def splitDepth (size : Nat) : Nat → Nat → Nat → Nat
  | 0, _, _ => 0
  | fuel + 1, a, b =>
    if size ≤ a then splitDepth size fuel (2 * (a - size)) (2 * (b - size)) + 1
    else if size ≤ b then 1
    else splitDepth size fuel (2 * a) (2 * b) + 1

/-- The depth of the boundary after a waiting run, from the middles of the two runs. -/
def Waiting.depthBefore (w : Waiting β) (size length : Nat) : Nat :=
  let middle := 2 * w.start + w.run.length
  splitDepth size (size + 1) middle (middle + w.run.length + length)

/-- The elements of the runs that wait, the last run at the end. -/
def elements : List (Waiting β) → List β
  | [] => []
  | last :: before => elements before ++ last.run

variable (less : β → β → Bool)

/-- Merges the last run with those before it whose boundaries lie deeper. -/
def mergeDeeper (depth wins : Nat) (last : Waiting β) :
    List (Waiting β) → List (Waiting β) × Nat
  | [] => ([{ last with depth }], wins)
  | before :: rest =>
    if depth < before.depth then
      let (run, wins) := merge less wins before.run last.run
      mergeDeeper depth wins { before with run } rest
    else ({ last with depth } :: before :: rest, wins)

theorem elements_mergeDeeper_perm (depth wins : Nat) (last : Waiting β)
    (before : List (Waiting β)) :
    (elements (mergeDeeper less depth wins last before).1).Perm (elements (last :: before)) := by
  induction before generalizing wins last with
  | nil => simp [mergeDeeper, elements]
  | cons w rest ih =>
    simp only [mergeDeeper]
    split
    · refine (ih _ _).trans ?_
      simpa [elements] using (merge_perm less wins w.run last.run).append_left (elements rest)
    · exact .refl _

/-- Lets a run wait, the last one first, after what it allows to merge. -/
def addRun (size : Nat) (waiting : List (Waiting β) × Nat) (run : List β) :
    List (Waiting β) × Nat :=
  match waiting with
  | ([], wins) => ([⟨0, 0, run⟩], wins)
  | (last :: rest, wins) =>
    let (merged, wins) := mergeDeeper less (last.depthBefore size run.length) wins last rest
    (⟨last.start + last.run.length, 0, run⟩ :: merged, wins)

theorem elements_addRun_perm (size : Nat) (waiting : List (Waiting β) × Nat) (run : List β) :
    (elements (addRun less size waiting run).1).Perm (elements waiting.1 ++ run) := by
  obtain ⟨waiting, wins⟩ := waiting
  cases waiting with
  | nil => simp [addRun, elements]
  | cons last rest =>
    have := elements_mergeDeeper_perm less (last.depthBefore size run.length) wins last rest
    simpa [addRun, elements] using this.append_right run

/-- Merges all waiting runs from the end, a short third one before the last. -/
def mergeAll (wins : Nat) : List (Waiting β) → List β
  | [] => []
  | [last] => last.run
  | [last, before] => (merge less wins before.run last.run).1
  | last :: before :: third :: rest =>
    if third.run.length < last.run.length then
      let (run, wins) := merge less wins third.run before.run
      mergeAll wins (last :: { third with run } :: rest)
    else
      let (run, wins) := merge less wins before.run last.run
      mergeAll wins ({ before with run } :: third :: rest)
termination_by waiting => waiting.length

theorem mergeAll_perm (wins : Nat) (waiting : List (Waiting β)) :
    (mergeAll less wins waiting).Perm (elements waiting) := by
  fun_induction mergeAll less wins waiting with
  | case1 => simp [elements]
  | case2 => simp [elements]
  | case3 wins last before => simpa [elements] using merge_perm less wins before.run last.run
  | case4 wins last before third rest _ run wins' h ih =>
    have := merge_perm less wins third.run before.run
    rw [h] at this
    refine ih.trans ?_
    simpa [elements] using (this.append_right last.run).append_left (elements rest)
  | case5 wins last before third rest _ run wins' h ih =>
    have := merge_perm less wins before.run last.run
    rw [h] at this
    refine ih.trans ?_
    simpa [elements] using this.append_left (elements rest ++ third.run)

/-- The elements of a list in ascending order. -/
def sorted (l : List β) : List β :=
  let (waiting, wins) :=
    (runs less (leastLength l.length 0) l).foldl (addRun less l.length) ([], patience)
  mergeAll less wins waiting

/-- Sorting neither loses nor invents elements, whatever the order. -/
theorem sorted_perm (l : List β) : (sorted less l).Perm l := by
  have added (size : Nat) (runs : List (List β)) (waiting : List (Waiting β) × Nat) :
      (elements (runs.foldl (addRun less size) waiting).1).Perm
        (elements waiting.1 ++ runs.flatten) := by
    induction runs generalizing waiting with
    | nil => simp
    | cons run rest ih =>
      refine (ih _).trans ?_
      simpa using (elements_addRun_perm less size waiting run).append_right rest.flatten
  refine (mergeAll_perm less _ _).trans ((added _ _ _).trans ?_)
  simpa [elements] using flatten_runs_perm less _ l

end EntityDiagram.Sorting
