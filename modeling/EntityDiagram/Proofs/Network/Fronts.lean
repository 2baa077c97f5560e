import EntityDiagram.Proofs.Network.Orientation

/-! Fronts of a network without cycles. A front holds exactly the vertices whose predecessors are
all finished; finishing it makes the next one. So every vertex comes into some front, and it comes
after its predecessors. -/
namespace EntityDiagram.Network

variable {ν : Type} [DecidableEq ν] {n : Network ν}

/-- What becomes ready has a predecessor in the front and no other that is left over. -/
theorem mem_readyAfter_iff {finished front : List ν} {w : ν} :
    w ∈ n.readyAfter finished front ↔ (∃ u ∈ front, (u, w) ∈ n.edges) ∧
      ∀ u, (u, w) ∈ n.edges → u ∈ front ∨ u ∈ finished := by
  induction front generalizing finished with
  | nil => simp [readyAfter]
  | cons v rest ih =>
    have hchunk : w ∈ (n.successors v).filter
        (fun w => (n.predecessors w).all (· ∈ v :: finished)) ↔
          (v, w) ∈ n.edges ∧ ∀ u, (u, w) ∈ n.edges → u ∈ v :: finished := by
      simp
    rw [readyAfter, List.mem_append, hchunk, ih]
    constructor
    · rintro (⟨hvw, hall⟩ | ⟨⟨u, hu, huw⟩, hall⟩)
      · refine ⟨⟨v, List.mem_cons_self, hvw⟩, ?_⟩
        intro u huw
        rcases List.mem_cons.mp (hall u huw) with rfl | hu
        · exact .inl List.mem_cons_self
        · exact .inr hu
      · refine ⟨⟨u, List.mem_cons_of_mem _ hu, huw⟩, ?_⟩
        intro u huw
        rcases hall u huw with hu | hu
        · exact .inl (List.mem_cons_of_mem _ hu)
        · rcases List.mem_cons.mp hu with rfl | hu
          · exact .inl List.mem_cons_self
          · exact .inr hu
    · rintro ⟨⟨u, hu, huw⟩, hall⟩
      have hrest : ∀ u, (u, w) ∈ n.edges → u ∈ rest ∨ u ∈ v :: finished := by
        intro u huw
        rcases hall u huw with hu | hu
        · rcases List.mem_cons.mp hu with rfl | hu
          · exact .inr List.mem_cons_self
          · exact .inl hu
        · exact .inr (List.mem_cons_of_mem _ hu)
      by_cases hlater : ∃ u ∈ rest, (u, w) ∈ n.edges
      · exact .inr ⟨hlater, hrest⟩
      · left
        have hnone : ∀ u, (u, w) ∈ n.edges → u ∉ rest := fun u huw hu => hlater ⟨u, hu, huw⟩
        rcases List.mem_cons.mp hu with rfl | hu
        · exact ⟨huw, fun v hvw => (hrest v hvw).resolve_left (hnone v hvw)⟩
        · exact absurd hu (hnone u huw)

/-- What is finished together with all that leads to it, and the vertices that are ready then. -/
structure Ready (n : Network ν) (finished front : List ν) : Prop where
  closed : ∀ u w, (u, w) ∈ n.edges → w ∈ finished → u ∈ finished
  mem_front_iff : ∀ w, w ∈ front ↔
    w ∈ n.vertices ∧ w ∉ finished ∧ ∀ u, (u, w) ∈ n.edges → u ∈ finished

variable {finished front : List ν}

/-- Finishing a front makes the next one. -/
theorem Ready.next (h : n.Ready finished front) (hsimple : n.IsSimple) :
    n.Ready (front.reverse ++ finished) (n.readyAfter finished front) := by
  have hmem : ∀ v, v ∈ front.reverse ++ finished ↔ v ∈ front ∨ v ∈ finished := by simp
  constructor
  · intro u w huw hw
    rw [hmem] at hw ⊢
    right
    rcases hw with hw | hw
    · exact ((h.mem_front_iff w).mp hw).2.2 u huw
    · exact h.closed u w huw hw
  · intro w
    rw [mem_readyAfter_iff]
    simp only [hmem]
    constructor
    · rintro ⟨⟨u, hu, huw⟩, hall⟩
      have hunfinished := ((h.mem_front_iff u).mp hu).2.1
      refine ⟨(hsimple.closed u w huw).2, ?_, hall⟩
      rintro (hw | hw)
      · exact hunfinished (((h.mem_front_iff w).mp hw).2.2 u huw)
      · exact hunfinished (h.closed u w huw hw)
    · rintro ⟨hw, hnew, hall⟩
      refine ⟨?_, hall⟩
      by_contra hnone
      have hready : ∀ u, (u, w) ∈ n.edges → u ∈ finished := by
        intro u huw
        exact (hall u huw).resolve_left fun hu => hnone ⟨u, hu, huw⟩
      exact hnew (.inl ((h.mem_front_iff w).mpr ⟨hw, fun hf => hnew (.inr hf), hready⟩))

/-- While something is left, something is ready: a vertex with nothing left below it. -/
theorem Ready.mem_finished_of_empty (h : n.Ready finished []) {rank : ν → Nat}
    (hclimbs : n.Climbs rank) (hsimple : n.IsSimple) : ∀ v ∈ n.vertices, v ∈ finished := by
  intro v
  induction hk : rank v using Nat.strongRecOn generalizing v with
  | ind k ih =>
    intro hv
    by_contra hunfinished
    have hready : ∀ u, (u, v) ∈ n.edges → u ∈ finished := fun u huv =>
      ih (rank u) (hk ▸ hclimbs u v huv) u rfl (hsimple.closed u v huv).1
    have hfront := (h.mem_front_iff v).mpr ⟨hv, hunfinished, hready⟩
    contradiction

/-- Fronts exhaust the network: every step finishes at least one vertex. -/
theorem Ready.mem_flatten_frontsFrom (h : n.Ready finished front) {rank : ν → Nat}
    (hclimbs : n.Climbs rank) (hsimple : n.IsSimple) {fuel : Nat}
    (hfuel : (n.vertices.filter (· ∉ finished)).length ≤ fuel) {v : ν} (hv : v ∈ n.vertices)
    (hunfinished : v ∉ finished) : v ∈ (n.frontsFrom fuel finished front).flatten := by
  induction fuel generalizing finished front with
  | zero =>
    have hmem : v ∈ n.vertices.filter (· ∉ finished) := by simp [hv, hunfinished]
    have := List.length_pos_of_mem hmem
    omega
  | succ fuel ih =>
    cases front with
    | nil => exact absurd (h.mem_finished_of_empty hclimbs hsimple v hv) hunfinished
    | cons first rest =>
      change v ∈ ((first :: rest) :: n.frontsFrom fuel ((first :: rest).reverse ++ finished)
        (n.readyAfter finished (first :: rest))).flatten
      rw [List.flatten_cons, List.mem_append]
      by_cases hfront : v ∈ first :: rest
      · exact .inl hfront
      · right
        apply ih (h.next hsimple)
        · obtain ⟨hfirst, hnew, -⟩ := (h.mem_front_iff first).mp List.mem_cons_self
          have hfewer : n.vertices.filter (· ∉ (first :: rest).reverse ++ finished) =
              (n.vertices.filter (· ∉ finished)).filter (· ∉ first :: rest) := by
            rw [List.filter_filter]
            apply List.filter_congr
            intro w _
            rw [← Bool.decide_and, decide_eq_decide, List.mem_append, List.mem_reverse, not_or]
          have hless := List.length_filter_lt_length_iff_exists.mpr
            (⟨first, by simp [hfirst, hnew], by simp⟩ : ∃ w ∈ n.vertices.filter (· ∉ finished),
              ¬ decide (w ∉ first :: rest) = true)
          rw [hfewer]
          omega
        · simp only [List.mem_append, List.mem_reverse]
          tauto

/-- In the order of fronts a vertex comes after its predecessors. -/
theorem Ready.findIdx_lt (h : n.Ready finished front) (hsimple : n.IsSimple) {fuel : Nat}
    {u w : ν} (huw : (u, w) ∈ n.edges) (hw : w ∈ (n.frontsFrom fuel finished front).flatten) :
    u ∈ finished ∨ (n.frontsFrom fuel finished front).findIdx (u ∈ ·) <
      (n.frontsFrom fuel finished front).findIdx (w ∈ ·) := by
  induction fuel generalizing finished front with
  | zero => simp [frontsFrom] at hw
  | succ fuel ih =>
    rw [frontsFrom] at hw ⊢
    split_ifs at hw ⊢ with hempty
    · simp at hw
    · by_cases hwfront : w ∈ front
      · exact .inl (((h.mem_front_iff w).mp hwfront).2.2 u huw)
      · rw [List.flatten_cons, List.mem_append, or_iff_right hwfront] at hw
        have hwidx := List.findIdx_cons (p := fun c => decide (w ∈ c)) (b := front)
          (l := n.frontsFrom fuel (front.reverse ++ finished) (n.readyAfter finished front))
        have huidx := List.findIdx_cons (p := fun c => decide (u ∈ c)) (b := front)
          (l := n.frontsFrom fuel (front.reverse ++ finished) (n.readyAfter finished front))
        rw [hwidx, huidx]
        simp only [hwfront, decide_false, cond_false]
        by_cases hufront : u ∈ front
        · simp [hufront]
        · rcases ih (h.next hsimple) hw with hu | hless
          · left
            simpa [hufront] using hu
          · right
            simp only [hufront, decide_false, cond_false]
            omega

/-- No front is empty. -/
theorem Ready.exists_mem (h : n.Ready finished front) (hsimple : n.IsSimple) {fuel : Nat} :
    ∀ later ∈ n.frontsFrom fuel finished front, ∃ v ∈ later, v ∈ n.vertices := by
  induction fuel generalizing finished front with
  | zero => simp [frontsFrom]
  | succ fuel ih =>
    cases front with
    | nil => simp [frontsFrom]
    | cons first rest =>
      change ∀ later ∈ (first :: rest) :: n.frontsFrom fuel ((first :: rest).reverse ++ finished)
        (n.readyAfter finished (first :: rest)), ∃ v ∈ later, v ∈ n.vertices
      rw [List.forall_mem_cons]
      have hfirst := ((h.mem_front_iff first).mp List.mem_cons_self).1
      exact ⟨⟨first, List.mem_cons_self, hfirst⟩, ih (h.next hsimple)⟩

section

variable (h : n.IsSimple)
include h

/-- The first front holds the roots of the orientation. -/
theorem ready_start : n.oriented.Ready [] (n.roots ++ n.oriented.roots.filter (· ∉ n.roots)) := by
  refine ⟨by simp, ?_⟩
  intro w
  have hfirst : w ∈ n.roots ++ n.oriented.roots.filter (· ∉ n.roots) ↔ w ∈ n.oriented.roots := by
    simp only [List.mem_append, List.mem_filter, decide_eq_true_eq]
    constructor
    · rintro (hw | ⟨hw, -⟩)
      · exact roots_subset_roots_oriented h hw
      · exact hw
    · intro hw
      by_cases hroot : w ∈ n.roots
      · exact .inl hroot
      · exact .inr ⟨hw, hroot⟩
  rw [hfirst, mem_roots_iff]
  simp

theorem mem_flatten_fronts {v : ν} (hv : v ∈ n.vertices) : v ∈ n.fronts.flatten := by
  refine (ready_start h).mem_flatten_frontsFrom (climbs_oriented h) h.oriented ?_ hv (by simp)
  exact List.length_filter_le _ _

theorem findIdx_fronts_lt {u w : ν} (huw : (u, w) ∈ n.oriented.edges) :
    n.fronts.findIdx (u ∈ ·) < n.fronts.findIdx (w ∈ ·) := by
  have hw := mem_flatten_fronts h (h.oriented.closed u w huw).2
  exact ((ready_start h).findIdx_lt h.oriented huw hw).resolve_left (by simp)

theorem exists_mem_of_mem_fronts : ∀ front ∈ n.fronts, ∃ v ∈ front, v ∈ n.vertices :=
  (ready_start h).exists_mem h.oriented

end

end EntityDiagram.Network
