import EntityDiagram.Sorting.Run

/-! Merging of two runs. Elements are taken one by one until one run wins several times in a row;
then whole stretches are taken, whose ends are found by doubling steps and halving. -/
namespace EntityDiagram.Sorting

variable {β : Type}

/-- The number of wins in a row from which stretches pay. -/
def patience : Nat := 7

/-- Steps of doubled length while an index passes: the last index that passed and the next one. -/
def stride (passes : Nat → Bool) (size : Nat) : Nat → Nat → Nat → Nat × Nat
  | 0, last, next => (last, next)
  | fuel + 1, last, next =>
    if next < size && passes next then stride passes size fuel next (2 * next + 1)
    else (last, next)

/-- Halves a range of indices to the first one that does not pass. The halves of an even range meet
above its middle, or below it for a list that was turned round. -/
def bisect (turned : Bool) (passes : Nat → Bool) (low high : Nat) : Nat :=
  if low < high then
    let half := (high - low) / 2
    let middle := if turned then high - 1 - half else low + half
    if passes middle then bisect turned passes (middle + 1) high
    else bisect turned passes low middle
  else low
termination_by high - low
decreasing_by all_goals grind

/-- The length of the stretch at the beginning of a list whose elements pass. -/
def stretch (turned : Bool) (passes : β → Bool) (l : List β) : Nat :=
  let passesAt (i : Nat) : Bool := l[i]?.any passes
  if passesAt 0 then
    let (last, next) := stride passesAt l.length l.length 0 1
    bisect turned passesAt (last + 1) (min next l.length)
  else 0

/-- What is merged so far, and what is left of two runs. -/
structure Merging (β : Type) where
  merged : List β
  first : List β
  second : List β

namespace Merging

/-- At most one element of the first run is left, which comes last, or nothing of the second. -/
def isSettled (m : Merging β) : Bool := m.first.length ≤ 1 || m.second.isEmpty

def result (m : Merging β) : List β := m.merged ++ m.second ++ m.first

/-- Takes elements of the first run, if anything is to be decided. -/
def takeFirst (m : Merging β) (count : Nat) : Merging β :=
  if m.isSettled then m
  else ⟨m.merged ++ m.first.take count, m.first.drop count, m.second⟩

/-- Takes elements of the second run, if anything is to be decided. -/
def takeSecond (m : Merging β) (count : Nat) : Merging β :=
  if m.isSettled then m
  else ⟨m.merged ++ m.second.take count, m.first, m.second.drop count⟩

theorem result_takeFirst_perm (m : Merging β) (n : Nat) : (m.takeFirst n).result.Perm m.result := by
  simp only [takeFirst]
  split
  · exact .refl _
  · simp only [result, List.append_assoc]
    refine .append_left _ ?_
    exact (List.perm_append_comm_assoc _ _ _).trans (by simp)

theorem result_takeSecond (m : Merging β) (n : Nat) : (m.takeSecond n).result = m.result := by
  simp only [takeSecond]
  split <;> simp [result]

variable (turned : Bool) (less : β → β → Bool)

/-- The stretch of the first run that comes before the next element of the second. -/
def firstStretch (m : Merging β) : Nat :=
  match m.second with
  | [] => 0
  | b :: _ => stretch turned (fun a => !less b a) m.first

/-- The stretch of the second run that comes before the next element of the first. -/
def secondStretch (m : Merging β) : Nat :=
  match m.first with
  | [] => 0
  | a :: _ => stretch turned (fun b => less b a) m.second

/-- A stretch of each run, each followed by an element of the other run, and the length of the
longer stretch. Runs that were turned round begin with the second one. -/
def takeStretches (m : Merging β) : Merging β × Nat :=
  if turned then
    let second := m.secondStretch turned less
    let m := (m.takeSecond second).takeFirst 1
    let first := m.firstStretch turned less
    ((m.takeFirst first).takeSecond 1, max first second)
  else
    let first := m.firstStretch turned less
    let m := (m.takeFirst first).takeSecond 1
    let second := m.secondStretch turned less
    ((m.takeSecond second).takeFirst 1, max first second)

theorem result_takeStretches_perm (m : Merging β) :
    (m.takeStretches turned less).1.result.Perm m.result := by
  simp only [takeStretches]
  split
  · rw [result_takeSecond]
    refine (result_takeFirst_perm _ _).trans ((result_takeFirst_perm _ _).trans ?_)
    rw [result_takeSecond]
  · refine (result_takeFirst_perm _ _).trans ?_
    rw [result_takeSecond, result_takeSecond]
    exact result_takeFirst_perm _ _

/-- How elements are taken: one by one, with the wins in a row of each run, or in stretches. -/
inductive Pace where
  | single (firstWins secondWins : Nat)
  | stretches

/-- Merges until all is decided. The wins that stretches take grow when stretches are short and
shrink when they stay long. -/
def run : Nat → Nat → Pace → Merging β → Merging β × Nat
  | 0, wins, _, m => (m, wins)
  | fuel + 1, wins, .single firstWins secondWins, m =>
    if m.isSettled then (m, wins)
    else
      match m.first, m.second with
      | a :: _, b :: _ =>
        if less b a then
          let pace := if wins ≤ secondWins + 1 then .stretches else .single 0 (secondWins + 1)
          run fuel wins pace (m.takeSecond 1)
        else
          let pace := if wins ≤ firstWins + 1 then .stretches else .single (firstWins + 1) 0
          run fuel wins pace (m.takeFirst 1)
      | _, _ => (m, wins)
  | fuel + 1, wins, .stretches, m =>
    if m.isSettled then (m, wins)
    else
      let (m, longer) := m.takeStretches turned less
      if m.isSettled then (m, wins)
      else if patience ≤ longer then run fuel (max 1 (wins - 1)) .stretches m
      else run fuel (wins + 1) (.single 0 0) m

theorem result_run_perm (fuel wins : Nat) (pace : Pace) (m : Merging β) :
    (m.run turned less fuel wins pace).1.result.Perm m.result := by
  induction fuel generalizing wins pace m with
  | zero => exact .refl _
  | succ fuel ih =>
    have stretches := result_takeStretches_perm turned less m
    cases pace with
    | single firstWins secondWins =>
      simp only [run]
      split
      · exact .refl _
      · split
        · split
          · exact (ih _ _ _).trans (.of_eq (result_takeSecond m 1))
          · exact (ih _ _ _).trans (result_takeFirst_perm m 1)
        · exact .refl _
    | stretches =>
      simp only [run]
      split
      · exact .refl _
      · split
        · exact stretches
        · split <;> exact (ih _ _ _).trans stretches

end Merging

variable (less : β → β → Bool)

/-- Merges two runs of which the first begins after the second and the second ends before the first.
The shorter one is merged from its side. -/
def mergeOverlap (wins : Nat) (a b : List β) : List β × Nat :=
  let fuel := a.length + b.length
  if a.length ≤ b.length then
    let (m, wins) := (Merging.mk [] a b |>.takeSecond 1).run false less fuel wins (.single 0 0)
    (m.result, wins)
  else
    let (m, wins) := (Merging.mk [] b.reverse a.reverse |>.takeSecond 1).run true
      (fun x y => less y x) fuel wins (.single 0 0)
    (m.result.reverse, wins)

theorem mergeOverlap_perm (wins : Nat) (a b : List β) :
    (mergeOverlap less wins a b).1.Perm (a ++ b) := by
  simp only [mergeOverlap]
  split
  · refine (Merging.result_run_perm _ _ _ _ _ _).trans ?_
    rw [Merging.result_takeSecond]
    simpa [Merging.result] using List.perm_append_comm
  · refine (List.reverse_perm _).trans ((Merging.result_run_perm _ _ _ _ _ _).trans ?_)
    rw [Merging.result_takeSecond]
    simpa [Merging.result] using (List.reverse_perm a).append (List.reverse_perm b)

/-- Merges two neighboring runs. What is in place at both ends stays there. -/
def merge (wins : Nat) (a b : List β) : List β × Nat :=
  match b with
  | [] => (a, wins)
  | next :: _ =>
    let kept := stretch false (fun x => !less next x) a
    match (a.drop kept).getLast? with
    | none => (a ++ b, wins)
    | some last =>
      let moved := b.length - stretch true (fun x => !less x last) b.reverse
      let (overlap, wins) := mergeOverlap less wins (a.drop kept) (b.take moved)
      (a.take kept ++ overlap ++ b.drop moved, wins)

theorem merge_perm (wins : Nat) (a b : List β) : (merge less wins a b).1.Perm (a ++ b) := by
  simp only [merge]
  split
  · simp
  · rename_i next rest
    split
    · exact .refl _
    · rename_i last _
      generalize stretch false (fun x => !less next x) a = kept
      generalize (next :: rest).length - _ = moved
      have overlap := mergeOverlap_perm less wins (a.drop kept) ((next :: rest).take moved)
      have joined : a.take kept ++ (a.drop kept ++ (next :: rest).take moved) ++
          (next :: rest).drop moved = a ++ (next :: rest) := by
        simp [← List.append_assoc (a.take kept)]
      exact ((overlap.append_left _).append_right _).trans (.of_eq joined)

end EntityDiagram.Sorting
