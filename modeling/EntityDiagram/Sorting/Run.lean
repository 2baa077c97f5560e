/-! Ascending runs of a list. Nothing is assumed of the order: where it is not total, which
comparisons are made decides where an element ends. -/
namespace EntityDiagram.Sorting

variable {β : Type}

/-- The longest part at the beginning whose neighbors are related, and what comes after it. -/
def firstRun (related : β → β → Bool) : List β → List β × List β
  | a :: b :: rest =>
    if related a b then
      let (run, others) := firstRun related (b :: rest)
      (a :: run, others)
    else ([a], b :: rest)
  | l => (l, [])

theorem append_firstRun (related : β → β → Bool) (l : List β) :
    (firstRun related l).1 ++ (firstRun related l).2 = l := by
  fun_induction firstRun related l <;> simp_all

theorem firstRun_ne_nil (related : β → β → Bool) {l : List β} (h : l ≠ []) :
    (firstRun related l).1 ≠ [] := by
  fun_induction firstRun related l <;> simp_all

variable (less : β → β → Bool)

/-- The run at the beginning in ascending order, and what comes after it. A run that falls is turned
round; any other run does not fall anywhere. -/
def ascendingRun (l : List β) : List β × List β :=
  let (rising, others) := firstRun (fun a b => !less b a) l
  if rising.length = 1 then
    let (falling, others) := firstRun (fun a b => less b a) l
    (falling.reverse, others)
  else (rising, others)

theorem length_ascendingRun (l : List β) :
    (ascendingRun less l).1.length + (ascendingRun less l).2.length = l.length := by
  have rising := congrArg List.length (append_firstRun (fun a b => !less b a) l)
  have falling := congrArg List.length (append_firstRun (fun a b => less b a) l)
  simp only [List.length_append] at rising falling
  simp only [ascendingRun]
  split <;> simp_all

theorem ascendingRun_ne_nil {l : List β} (h : l ≠ []) : (ascendingRun less l).1 ≠ [] := by
  have rising := firstRun_ne_nil (fun a b => !less b a) h
  have falling := firstRun_ne_nil (fun a b => less b a) h
  simp only [ascendingRun]
  split <;> simp_all

theorem ascendingRun_perm (l : List β) :
    ((ascendingRun less l).1 ++ (ascendingRun less l).2).Perm l := by
  simp only [ascendingRun]
  split
  · have falling := append_firstRun (fun a b => less b a) l
    exact ((List.reverse_perm _).append_right _).trans (by rw [falling])
  · exact .of_eq (append_firstRun _ l)

/-- Inserts an element into a run, after the elements that it is not less than. The run is halved
until no element is left to compare with. -/
def insertByHalving (a : β) (l : List β) : List β :=
  let half := l.length / 2
  if h : half < l.length then
    if less a l[half] then insertByHalving a (l.take half) ++ l.drop half
    else l.take (half + 1) ++ insertByHalving a (l.drop (half + 1))
  else [a]
termination_by l.length
decreasing_by all_goals simp; omega

theorem insertByHalving_perm (a : β) (l : List β) : (insertByHalving less a l).Perm (a :: l) := by
  fun_induction insertByHalving less a l with
  | case1 l half _ _ ih =>
    simpa using ih.append_right (l.drop half)
  | case2 l half _ _ ih =>
    simpa using (ih.append_left (l.take (half + 1))).trans List.perm_middle
  | case3 l half h =>
    have : l = [] := List.length_eq_zero_iff.1 (by omega)
    simp [this]

theorem foldl_insertByHalving_perm (added run : List β) :
    (added.foldl (fun run a => insertByHalving less a run) run).Perm (run ++ added) := by
  induction added generalizing run with
  | nil => simp
  | cons a added ih =>
    exact (ih _).trans (((insertByHalving_perm less a run).append_right added).trans
      List.perm_middle.symm)

/-- The least length of a run, so that there are nearly a power of two of them: the length of the
list, halved until it is below 64, and one more if a half was cut off. -/
def leastLength (n : Nat) (cutOff : Nat) : Nat :=
  if n < 64 then n + cutOff else leastLength (n / 2) (max cutOff (n % 2))

/-- Cuts a list into runs; a short run is lengthened by insertion. -/
def runs (least : Nat) (l : List β) : List (List β) :=
  if _ : l = [] then []
  else
    let cut := ascendingRun less l
    let missing := least - cut.1.length
    (cut.2.take missing).foldl (fun run a => insertByHalving less a run) cut.1 ::
      runs least (cut.2.drop missing)
termination_by l.length
decreasing_by
  have := length_ascendingRun less l
  have := List.length_pos_iff.2 (ascendingRun_ne_nil less (by assumption))
  grind

theorem flatten_runs_perm (least : Nat) (l : List β) : (runs less least l).flatten.Perm l := by
  fun_induction runs less least l with
  | case1 => simp
  | case2 l h cut missing ih =>
    have lengthened := foldl_insertByHalving_perm less (cut.2.take missing) cut.1
    have joined : (cut.1 ++ cut.2.take missing) ++ cut.2.drop missing = cut.1 ++ cut.2 := by simp
    exact (lengthened.append ih).trans ((List.Perm.of_eq joined).trans (ascendingRun_perm less l))

end EntityDiagram.Sorting
