import EntityDiagram.Proofs.Network.Acyclic

/-! Depth-first search that stops at the first edge back onto its path, as rules without any bound
on the depth. The rules give exactly one outcome, and the bounded search, which goes on to the end,
records that outcome first: its depth is never used up. What stops a search is a cycle that meets no
vertex twice. -/
namespace EntityDiagram

/-- How a search ends: at an edge back onto its path, or with the vertices that it has finished,
newest first. -/
inductive Outcome (ν : Type) where
  | closed (closing : Closing ν)
  | done (finished : List ν)

/-- The cycle that an outcome shows. -/
def Outcome.cycle? {ν : Type} [DecidableEq ν] : Outcome ν → Option (List ν)
  | closed closing => some closing.cycle
  | done _ => none

/-- A way along a relation that ends where it begins and meets no other vertex twice. -/
structure IsCycle {ν : Type} (r : ν → ν → Prop) (vertices : List ν) : Prop where
  two_le_length : 2 ≤ vertices.length
  returns : vertices.head? = vertices.getLast?
  nodup : vertices.dropLast.Nodup
  chain : List.IsChain r vertices

variable {ν : Type} {successors : ν → List ν}

/-- Looks at some vertices from the end of a path, newest vertex first, when some vertices are
finished already. A vertex on the path stops the search, a finished one is passed over, and any
other is finished once its successors are. -/
inductive Explores (successors : ν → List ν) : List ν → List ν → List ν → Outcome ν → Prop
  | nil {path finished} : Explores successors path finished [] (.done finished)
  | close {path finished v rest} (onPath : v ∈ path) :
    Explores successors path finished (v :: rest) (.closed ⟨path, v⟩)
  | pass {path finished v rest outcome} (new : v ∉ path) (old : v ∈ finished)
    (tail : Explores successors path finished rest outcome) :
    Explores successors path finished (v :: rest) outcome
  | stop {path finished v rest closing} (new : v ∉ path) (unfinished : v ∉ finished)
    (inner : Explores successors (v :: path) finished (successors v) (.closed closing)) :
    Explores successors path finished (v :: rest) (.closed closing)
  | finish {path finished v rest within outcome} (new : v ∉ path) (unfinished : v ∉ finished)
    (inner : Explores successors (v :: path) finished (successors v) (.done within))
    (tail : Explores successors path (v :: within) rest outcome) :
    Explores successors path finished (v :: rest) outcome

variable {path finished work : List ν} {outcome other : Outcome ν}

/-- The rules leave no choice. -/
theorem Explores.unique (h : Explores successors path finished work outcome)
    (h' : Explores successors path finished work other) : outcome = other := by
  induction h generalizing other with
  | nil =>
    cases h'
    rfl
  | close onPath =>
    cases h' with
    | close _ => rfl
    | pass new _ _ => contradiction
    | stop new _ _ => contradiction
    | finish new _ _ _ => contradiction
  | pass new old _ ih =>
    cases h' with
    | close onPath => contradiction
    | pass _ _ tail => exact ih tail
    | stop _ unfinished _ => contradiction
    | finish _ unfinished _ _ => contradiction
  | stop new unfinished _ ih =>
    cases h' with
    | close onPath => contradiction
    | pass _ old _ => contradiction
    | stop _ _ inner => exact ih inner
    | finish _ _ inner _ => cases ih inner
  | finish new unfinished _ _ ihInner ihTail =>
    cases h' with
    | close onPath => contradiction
    | pass _ old _ => contradiction
    | stop _ _ inner => cases ihInner inner
    | finish _ _ inner tail =>
      cases ihInner inner
      exact ihTail tail

/-- What stops a search leads back onto a path that meets no vertex twice. -/
theorem Explores.isBackEdge (h : Explores successors path finished work outcome)
    (hwork : ∀ v ∈ work, List.IsChain (fun v u => v ∈ successors u) (v :: path))
    (hpath : path.Nodup) {closing : Closing ν} (hclosed : outcome = .closed closing) :
    closing.IsBackEdge successors ∧ closing.path.Nodup := by
  induction h with
  | nil => contradiction
  | close onPath =>
    cases hclosed
    exact ⟨⟨hwork _ List.mem_cons_self, onPath⟩, hpath⟩
  | pass _ _ _ ih => exact ih (fun v hv => hwork v (List.mem_cons_of_mem _ hv)) hpath hclosed
  | stop new _ _ ih =>
    refine ih ?_ (List.nodup_cons.mpr ⟨new, hpath⟩) hclosed
    intro w hw
    exact List.isChain_cons_cons.mpr ⟨hw, hwork _ List.mem_cons_self⟩
  | finish _ _ _ _ _ ihTail =>
    exact ihTail (fun v hv => hwork v (List.mem_cons_of_mem _ hv)) hpath hclosed

variable [DecidableEq ν]

/-- An edge back onto such a path completes a cycle. -/
theorem Closing.IsBackEdge.isCycle {c : Closing ν} (h : c.IsBackEdge successors)
    (hpath : c.path.Nodup) : IsCycle (fun u w => w ∈ successors u) c.cycle := by
  obtain ⟨chain, mem⟩ := h
  obtain ⟨path, target⟩ := c
  dsimp only at chain mem hpath
  obtain ⟨before, after, rfl, hbefore⟩ := List.eq_append_cons_of_mem mem
  have hcycle : Closing.cycle ⟨before ++ target :: after, target⟩ =
      target :: before.reverse ++ [target] := by
    have hne : ∀ v ∈ before, decide (v ≠ target) = true := by
      intro v hv
      simpa using fun heq : v = target => hbefore (heq ▸ hv)
    rw [Closing.cycle, List.takeWhile_append_of_pos hne]
    simp
  have hsplit : target :: (before ++ target :: after) = target :: before ++ [target] ++ after := by
    simp
  rw [hcycle]
  constructor
  · simp
  · rw [List.getLast?_concat]
    rfl
  · rw [List.dropLast_concat, List.nodup_cons, List.mem_reverse, List.nodup_reverse]
    exact ⟨hbefore, (List.nodup_append'.mp hpath).1⟩
  · have hreverse : (target :: before ++ [target]).reverse =
        target :: before.reverse ++ [target] := by simp
    rw [← hreverse]
    exact List.isChain_reverse.mpr (hsplit ▸ chain).left_of_append

/-- A search from some roots stops at nothing but a cycle. -/
theorem Explores.isCycle {roots vertices : List ν} (h : Explores successors [] [] roots outcome)
    (hcycle : outcome.cycle? = some vertices) : IsCycle (fun u w => w ∈ successors u) vertices := by
  cases outcome with
  | done _ => contradiction
  | closed closing =>
    cases hcycle
    obtain ⟨hback, hpath⟩ :=
      h.isBackEdge (fun v _ => List.isChain_singleton v) List.nodup_nil rfl
    exact hback.isCycle hpath

namespace DepthFirst

variable {depth : Nat} {search : DepthFirst ν}

/-- A search keeps the edge that it has recorded first. -/
theorem head?_closings_visit {v : ν} {c : Closing ν}
    (h : search.closings.head? = some c) :
    (visit successors depth path search v).closings.head? = some c := by
  induction depth generalizing path search v with
  | zero => exact h
  | succ depth ih =>
    rw [visit]
    split_ifs
    · rw [List.head?_append_of_ne_nil _ (by rintro hnil; simp [hnil] at h), h]
    · exact h
    · exact List.foldlRecOn (motive := fun search : DepthFirst ν =>
        search.closings.head? = some c) (successors v) _ h fun search hsearch w _ => ih hsearch

theorem head?_closings_foldl {c : Closing ν} (h : search.closings.head? = some c) :
    (work.foldl (visit successors depth path) search).closings.head? = some c :=
  List.foldlRecOn (motive := fun search : DepthFirst ν => search.closings.head? = some c)
    work _ h fun _ hsearch _ _ => head?_closings_visit hsearch

/-- A record that begins with what stopped a search, or one without any edge back. -/
def Records (search : DepthFirst ν) : Outcome ν → Prop
  | .closed closing => search.closings.head? = some closing
  | .done finished => search = ⟨finished, []⟩

variable {vertices : List ν}

/-- The bounded search records the outcome of the rules. A path repeats no vertex, so it does not
become longer than the list of all vertices. -/
theorem exists_explores_foldl (closed : ∀ v ∈ vertices, successors v ⊆ vertices)
    (hdepth : vertices.length < depth + path.length) (hpath : path.Nodup)
    (hsubset : path ⊆ vertices) (hwork : work ⊆ vertices) (hnone : search.closings = []) :
    ∃ outcome, Explores successors path search.finished work outcome ∧
      (work.foldl (visit successors depth path) search).Records outcome := by
  induction depth generalizing path work search with
  | zero =>
    have := (hpath.subperm hsubset).length_le
    omega
  | succ depth ih =>
    induction work generalizing search with
    | nil =>
      obtain ⟨finished, closings⟩ := search
      cases hnone
      exact ⟨_, .nil, rfl⟩
    | cons v rest ihRest =>
      have hv : v ∈ vertices := hwork List.mem_cons_self
      have hrest : rest ⊆ vertices := fun w hw => hwork (List.mem_cons_of_mem _ hw)
      rw [List.foldl_cons]
      by_cases hmem : v ∈ path
      · refine ⟨_, .close hmem, head?_closings_foldl ?_⟩
        simp [visit, hmem, hnone]
      by_cases hfinished : v ∈ search.finished
      · obtain ⟨outcome, hexplores, hrecords⟩ := ihRest hrest hnone
        refine ⟨outcome, .pass hmem hfinished hexplores, ?_⟩
        rwa [visit, if_neg hmem, if_pos hfinished]
      have hlength : vertices.length < depth + (v :: path).length := by
        rw [List.length_cons]
        omega
      obtain ⟨outcome, hexplores, hrecords⟩ := ih hlength (List.nodup_cons.mpr ⟨hmem, hpath⟩)
        (List.cons_subset.mpr ⟨hv, hsubset⟩) (closed v hv) hnone
      rw [visit, if_neg hmem, if_neg hfinished]
      cases outcome with
      | closed closing => exact ⟨_, .stop hmem hfinished hexplores, head?_closings_foldl hrecords⟩
      | done within =>
        rw [show (successors v).foldl (visit successors depth (v :: path)) search = ⟨within, []⟩
          from hrecords]
        obtain ⟨outcome, htail, hlast⟩ := @ihRest ⟨v :: within, []⟩ hrest rfl
        exact ⟨outcome, .finish hmem hfinished hexplores htail, hlast⟩

/-- The search from some roots comes to exactly one outcome, and records it first. -/
theorem exists_explores_run (closed : ∀ v ∈ vertices, successors v ⊆ vertices) {roots : List ν}
    (hroots : roots ⊆ vertices) : ∃ outcome,
      (∀ other, Explores successors [] [] roots other ↔ other = outcome) ∧
      (run vertices successors roots).closings.head?.map Closing.cycle = outcome.cycle? := by
  have hdepth : vertices.length < vertices.length + 1 + ([] : List ν).length := by simp
  obtain ⟨outcome, hexplores, hrecords⟩ :=
    exists_explores_foldl closed hdepth List.nodup_nil (List.nil_subset _) hroots
      (show start.closings = [] from rfl)
  refine ⟨outcome, ?_, ?_⟩
  · intro other
    constructor
    · intro hother
      exact hother.unique hexplores
    · rintro rfl
      exact hexplores
  · cases outcome with
    | closed closing => exact congrArg (Option.map Closing.cycle) hrecords
    | done finished =>
      exact congrArg (fun search => search.closings.head?.map Closing.cycle) hrecords

end DepthFirst

end EntityDiagram
