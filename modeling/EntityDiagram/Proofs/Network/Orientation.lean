import EntityDiagram.Network
import EntityDiagram.Proofs.Network.Acyclic

/-! Turning round what a depth-first search meets as leading back. The search finishes the end of
every edge before its beginning, or the edge leads back and is turned round; so all edges point the
way in which their vertices stand among the finished ones, and no cycle is left. -/
namespace EntityDiagram.Network

variable {ν : Type}

/-- Edges join two different vertices of the network. -/
structure IsSimple (n : Network ν) : Prop where
  closed : ∀ u w, (u, w) ∈ n.edges → u ∈ n.vertices ∧ w ∈ n.vertices
  loopless : ∀ u w, (u, w) ∈ n.edges → u ≠ w

/-- Along every edge a number grows. -/
def Climbs (n : Network ν) (rank : ν → Nat) : Prop :=
  ∀ u w, (u, w) ∈ n.edges → rank u < rank w

variable [DecidableEq ν] {n : Network ν} {u v w : ν}

@[simp] theorem mem_successors_iff : w ∈ n.successors v ↔ (v, w) ∈ n.edges := by
  simp only [successors, List.mem_filterMap, Option.ite_none_right_eq_some, Option.some.injEq]
  constructor
  · rintro ⟨e, he, rfl, rfl⟩
    exact he
  · intro he
    exact ⟨(v, w), he, rfl, rfl⟩

@[simp] theorem mem_predecessors_iff : u ∈ n.predecessors v ↔ (u, v) ∈ n.edges := by
  simp only [predecessors, List.mem_filterMap, Option.ite_none_right_eq_some, Option.some.injEq]
  constructor
  · rintro ⟨e, he, rfl, rfl⟩
    exact he
  · intro he
    exact ⟨(u, v), he, rfl, rfl⟩

theorem mem_roots_iff : v ∈ n.roots ↔ v ∈ n.vertices ∧ ∀ u, (u, v) ∉ n.edges := by
  simp [roots, List.eq_nil_iff_forall_not_mem]

/-- The search that finds the feedback edges. -/
def search (n : Network ν) : DepthFirst ν :=
  DepthFirst.run n.vertices n.successors (n.roots ++ n.vertices)

theorem mem_feedback_iff : (u, w) ∈ n.feedback ↔ n.search.Closes u w := by
  rw [feedback, List.mem_filterMap]
  rfl

theorem mem_edges_oriented_iff : (u, w) ∈ n.oriented.edges ↔
    (u, w) ∈ n.edges ∧ (u, w) ∉ n.feedback ∨ (w, u) ∈ n.edges ∧ (w, u) ∈ n.feedback := by
  simp only [oriented, List.mem_map]
  constructor
  · rintro ⟨⟨a, b⟩, he, hedge⟩
    split_ifs at hedge with hfeedback
    · obtain ⟨rfl, rfl⟩ := Prod.mk.inj hedge
      exact .inr ⟨he, hfeedback⟩
    · obtain ⟨rfl, rfl⟩ := Prod.mk.inj hedge
      exact .inl ⟨he, hfeedback⟩
  · rintro (⟨he, hfeedback⟩ | ⟨he, hfeedback⟩)
    · exact ⟨(u, w), he, if_neg hfeedback⟩
    · exact ⟨(w, u), he, if_pos hfeedback⟩

theorem mem_edges_oriented_or (h : (u, w) ∈ n.edges) :
    (u, w) ∈ n.oriented.edges ∨ (w, u) ∈ n.oriented.edges := by
  by_cases hfeedback : (u, w) ∈ n.feedback
  · exact .inr (mem_edges_oriented_iff.mpr (.inr ⟨h, hfeedback⟩))
  · exact .inl (mem_edges_oriented_iff.mpr (.inl ⟨h, hfeedback⟩))

section

variable (h : n.IsSimple)
include h

theorem IsSimple.oriented : n.oriented.IsSimple := by
  constructor
  · intro u w huw
    rcases mem_edges_oriented_iff.mp huw with ⟨hedge, -⟩ | ⟨hedge, -⟩
    · exact h.closed u w hedge
    · exact (h.closed w u hedge).symm
  · intro u w huw
    rcases mem_edges_oriented_iff.mp huw with ⟨hedge, -⟩ | ⟨hedge, -⟩
    · exact h.loopless u w hedge
    · exact (h.loopless w u hedge).symm

lemma successors_subset : ∀ v ∈ n.vertices, n.successors v ⊆ n.vertices := by
  intro v _ w hw
  exact (h.closed v w (mem_successors_iff.mp hw)).2

omit h in
lemma roots_append_subset : n.roots ++ n.vertices ⊆ n.vertices :=
  List.append_subset.mpr ⟨List.filter_subset_self _, List.Subset.refl _⟩

/-- The place of a vertex among the finished ones grows along every edge that is turned as needed.
-/
theorem climbs_oriented : n.oriented.Climbs n.search.finished.idxOf := by
  have horders := (DepthFirst.deals_run (successors_subset h) roots_append_subset).orders
  have hfinished : ∀ v ∈ n.vertices, v ∈ n.search.finished := fun v hv =>
    DepthFirst.mem_finished_run (successors_subset h) roots_append_subset
      (List.mem_append_right _ hv)
  have hnodup : n.search.finished.Nodup := horders.nodup
  intro u w huw
  apply idxOf_lt_idxOf_of_sublist hnodup
  rcases mem_edges_oriented_iff.mp huw with ⟨hedge, hfeedback⟩ | ⟨hedge, hfeedback⟩
  · have hforward := horders.forward u (hfinished u (h.closed u w hedge).1) w
      (mem_successors_iff.mpr hedge)
    exact hforward.resolve_left fun hcloses => hfeedback (mem_feedback_iff.mpr hcloses)
  · have hbackward := horders.backward w u (mem_feedback_iff.mp hfeedback)
    exact hbackward.resolve_left (h.loopless w u hedge).symm

/-- Without a cycle nothing is turned round. -/
theorem edges_oriented_of_isAcyclic (hacyclic : IsAcyclic fun u w => (u, w) ∈ n.edges) :
    n.oriented.edges = n.edges := by
  have hnone : n.search.closings = [] := by
    refine (DepthFirst.closings_run_eq_nil_iff (successors_subset h) roots_append_subset ?_).mpr ?_
    · intro u w hw
      exact List.mem_append_right _ (h.closed u w (mem_successors_iff.mp hw)).1
    · simpa using hacyclic
  have hfeedback : n.feedback = [] := by
    change n.search.closings.filterMap Closing.edge? = []
    rw [hnone, List.filterMap_nil]
  simp [oriented, hfeedback]

/-- What no edge led to before, no edge leads to afterwards: an edge from there back onto a search
path would have to be a loop. -/
theorem roots_subset_roots_oriented : n.roots ⊆ n.oriented.roots := by
  intro v hv
  obtain ⟨hvertex, hroot⟩ := mem_roots_iff.mp hv
  refine mem_roots_iff.mpr ⟨hvertex, ?_⟩
  intro u huv
  rcases mem_edges_oriented_iff.mp huv with ⟨hedge, -⟩ | ⟨hedge, hfeedback⟩
  · exact hroot u hedge
  · obtain ⟨c, hc, hcedge⟩ := mem_feedback_iff.mp hfeedback
    obtain ⟨hchain, hmem⟩ := DepthFirst.isBackEdge_of_mem_run c hc
    obtain ⟨path, target⟩ := c
    cases path with
    | nil => cases hcedge
    | cons first older =>
      cases hcedge
      cases older with
      | nil => exact h.loopless v target hedge (List.mem_singleton.mp hmem).symm
      | cons earlier rest =>
        have hstep := (List.isChain_cons_cons.mp (List.isChain_cons_cons.mp hchain).2).1
        exact hroot earlier (mem_successors_iff.mp hstep)

end

end EntityDiagram.Network
