import EntityDiagram.Proofs.Network.DepthFirst
import Mathlib.Data.List.Chain
import Mathlib.Logic.Relation

/-! Depth-first search against cycles. A search path leads from vertex to successor, newest vertex
first, and a closing edge leads from its first vertex to one of its vertices, which makes a cycle.
A search that meets no such edge finishes every vertex after all of its successors, and then there
is no cycle. -/
namespace EntityDiagram

variable {ν : Type}

/-- No way along a relation leads back to where it begins. -/
def IsAcyclic (r : ν → ν → Prop) : Prop := ∀ v, ¬ Relation.TransGen r v v

variable {r t : ν → ν → Prop}

theorem IsAcyclic.mono (h : IsAcyclic t) (hrt : ∀ u w, r u w → t u w) : IsAcyclic r :=
  fun v hv => h v (Relation.TransGen.mono hrt v v hv)

/-- A relation along which a number grows has no cycle. -/
theorem isAcyclic_of_lt (rank : ν → Nat) (h : ∀ u w, r u w → rank u < rank w) : IsAcyclic r := by
  intro v hv
  have hway : ∀ w, Relation.TransGen r v w → rank v < rank w := by
    intro w hw
    induction hw with
    | single hedge => exact h _ _ hedge
    | tail _ hedge ih => exact ih.trans (h _ _ hedge)
  exact lt_irrefl _ (hway v hv)

variable {successors : ν → List ν}

/-- A path whose vertices are successors of each other, newest first, and an edge back onto it. -/
structure Closing.IsBackEdge (successors : ν → List ν) (c : Closing ν) : Prop where
  chain : List.IsChain (fun v u => v ∈ successors u) (c.target :: c.path)
  mem : c.target ∈ c.path

/-- From every vertex of a path a way leads to the vertex after its end. -/
theorem transGen_of_mem_chain {target v : ν} {path : List ν}
    (h : List.IsChain (fun v u => v ∈ successors u) (target :: path)) (hv : v ∈ path) :
    Relation.TransGen (fun u w => w ∈ successors u) v target := by
  induction path generalizing target with
  | nil => contradiction
  | cons u rest ih =>
    obtain ⟨hedge, hrest⟩ := List.isChain_cons_cons.mp h
    rcases List.mem_cons.mp hv with rfl | hv
    · exact .single hedge
    · exact (ih hrest hv).tail hedge

theorem Closing.IsBackEdge.transGen {c : Closing ν} (h : c.IsBackEdge successors) :
    Relation.TransGen (fun u w => w ∈ successors u) c.target c.target :=
  transGen_of_mem_chain h.chain h.mem

theorem Closing.IsBackEdge.exists_successor {c : Closing ν} (h : c.IsBackEdge successors) :
    ∃ w, w ∈ successors c.target := by
  obtain ⟨w, hw, -⟩ := Relation.TransGen.head'_iff.mp h.transGen
  exact ⟨w, hw⟩

namespace DepthFirst

variable [DecidableEq ν]

/-- Visits along a path record nothing but edges back onto a path. -/
theorem isBackEdge_of_mem_visit {depth : Nat} {path : List ν} {search : DepthFirst ν} {v : ν}
    (hpath : List.IsChain (fun v u => v ∈ successors u) (v :: path))
    (hsearch : ∀ c ∈ search.closings, c.IsBackEdge successors) :
    ∀ c ∈ (visit successors depth path search v).closings, c.IsBackEdge successors := by
  induction depth generalizing path search v with
  | zero => exact hsearch
  | succ depth ih =>
    rw [visit]
    split_ifs with hmem hfinished
    · intro c hc
      rcases List.mem_append.mp hc with hc | hc
      · exact hsearch c hc
      · rw [List.mem_singleton.mp hc]
        exact ⟨hpath, hmem⟩
    · exact hsearch
    · exact List.foldlRecOn (motive := fun search : DepthFirst ν =>
        ∀ c ∈ search.closings, c.IsBackEdge successors) (successors v) _ hsearch
        fun search hsearch w hw => ih (List.isChain_cons_cons.mpr ⟨hw, hpath⟩) hsearch

theorem isBackEdge_of_mem_run {vertices roots : List ν} :
    ∀ c ∈ (run vertices successors roots).closings, c.IsBackEdge successors :=
  List.foldlRecOn (motive := fun search : DepthFirst ν =>
    ∀ c ∈ search.closings, c.IsBackEdge successors) roots _ (by simp [start])
    fun _ hsearch v _ => isBackEdge_of_mem_visit (List.isChain_singleton v) hsearch

/-- A search that begins everywhere meets no edge that leads back exactly when there is no cycle. -/
theorem closings_run_eq_nil_iff {vertices roots : List ν}
    (closed : ∀ v ∈ vertices, successors v ⊆ vertices) (hroots : roots ⊆ vertices)
    (hall : ∀ u w, w ∈ successors u → u ∈ roots) :
    (run vertices successors roots).closings = [] ↔ IsAcyclic fun u w => w ∈ successors u := by
  constructor
  · intro hnil
    have horders := (deals_run closed hroots).orders
    apply isAcyclic_of_lt (run vertices successors roots).finished.idxOf
    intro u w hw
    have hu := mem_finished_run closed hroots (hall u w hw)
    rcases horders.forward u hu w hw with ⟨c, hc, -⟩ | hsublist
    · simp [hnil] at hc
    · exact idxOf_lt_idxOf_of_sublist (by simpa using horders.nodup) hsublist
  · intro hacyclic
    rw [List.eq_nil_iff_forall_not_mem]
    intro c hc
    exact hacyclic c.target (isBackEdge_of_mem_run c hc).transGen

end DepthFirst

end EntityDiagram
