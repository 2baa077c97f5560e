import EntityDiagram.Network
import Mathlib.Data.List.Perm.Basic
import Mathlib.Data.List.Nodup

/-! Classes of connected vertices. Joining two classes neither loses a vertex nor repeats one, so
the components of a network divide its vertices among them. -/
namespace EntityDiagram

variable {ν : Type} [DecidableEq ν]

/-- Of disjoint classes, one that holds a vertex is the only one that a search for it leaves out. -/
lemma perm_cons_filter_notMem {classes : List (List ν)} (h : classes.flatten.Nodup) {b : List ν}
    (hb : b ∈ classes) {v : ν} (hv : v ∈ b) : classes.Perm (b :: classes.filter (v ∉ ·)) := by
  induction classes with
  | nil => contradiction
  | cons first rest ih =>
    rw [List.flatten_cons, List.nodup_append'] at h
    obtain ⟨-, hrest, hdisjoint⟩ := h
    rcases List.mem_cons.mp hb with rfl | hb
    · have hnone : rest.filter (v ∉ ·) = rest := by
        rw [List.filter_eq_self]
        intro c hc
        have : v ∉ c := fun hvc => hdisjoint hv (List.mem_flatten_of_mem hc hvc)
        simpa using this
      rw [List.filter_cons_of_neg (by simpa using hv), hnone]
    · have hfirst : v ∉ first := fun hvf => hdisjoint hvf (List.mem_flatten_of_mem hb hv)
      rw [List.filter_cons_of_pos (by simpa using hfirst)]
      exact ((ih hrest hb).cons first).trans (.swap _ _ _)

/-- Appending to the one class that holds a vertex appends to all classes together. -/
lemma flatten_append_at_perm {classes : List (List ν)} (h : classes.flatten.Nodup) {a : List ν}
    (ha : a ∈ classes) {u : ν} (hu : u ∈ a) (b : List ν) :
    (classes.map fun c => if u ∈ c then c ++ b else c).flatten.Perm (classes.flatten ++ b) := by
  have hperm := perm_cons_filter_notMem h ha hu
  have hothers : (classes.filter (u ∉ ·)).map (fun c => if u ∈ c then c ++ b else c) =
      classes.filter (u ∉ ·) := by
    rw [List.map_congr_left (g := id), List.map_id]
    intro c hc
    have : u ∉ c := by simpa using (List.mem_filter.mp hc).2
    exact if_neg this
  refine (hperm.map _).flatten.trans ?_
  rw [List.map_cons, if_pos hu, hothers, List.flatten_cons]
  refine .trans ?_ (hperm.flatten.symm.append_right b)
  rw [List.flatten_cons, List.append_assoc, List.append_assoc]
  exact List.perm_append_comm.append_left a

/-- Joining classes keeps their members. -/
theorem flatten_joinClasses_perm {classes : List (List ν)} (h : classes.flatten.Nodup)
    (edge : ν × ν) : (joinClasses classes edge).flatten.Perm classes.flatten := by
  unfold joinClasses
  split
  · rename_i a b ha hb
    have hua : edge.1 ∈ a := by simpa using List.find?_some ha
    have hvb : edge.2 ∈ b := by simpa using List.find?_some hb
    have hamem := List.mem_of_find?_eq_some ha
    have hbmem := List.mem_of_find?_eq_some hb
    split_ifs with hva
    · exact .refl _
    · have hperm := perm_cons_filter_notMem h hbmem hvb
      have hkept : a ∈ classes.filter (edge.2 ∉ ·) := by simpa using ⟨hamem, hva⟩
      have hnodup := hperm.flatten.nodup_iff.mp h
      rw [List.flatten_cons, List.nodup_append'] at hnodup
      have hjoined := flatten_append_at_perm hnodup.2.1 hkept hua b
      refine hjoined.trans (List.perm_append_comm.trans ?_)
      simpa using hperm.flatten.symm
  · exact .refl _

namespace Network

/-- Every vertex is in exactly one class. -/
theorem flatten_classes_perm {n : Network ν} (h : n.vertices.Nodup) :
    n.classes.flatten.Perm n.vertices := by
  have hstart : (n.vertices.map fun v => [v]).flatten = n.vertices := by
    induction n.vertices with
    | nil => rfl
    | cons v rest ih => simp [ih]
  have hrun : ∀ (edges : List (ν × ν)) (classes : List (List ν)), classes.flatten.Nodup →
      (edges.foldl joinClasses classes).flatten.Perm classes.flatten := by
    intro edges
    induction edges with
    | nil => exact fun _ _ => .refl _
    | cons edge rest ih =>
      intro classes hclasses
      have hstep := flatten_joinClasses_perm hclasses edge
      exact (ih _ (hstep.nodup_iff.mpr hclasses)).trans hstep
  have hjoined := hrun n.edges (n.vertices.map fun v => [v]) (by rwa [hstart])
  rwa [hstart] at hjoined

/-- The components divide the vertices among them. -/
theorem flatMap_components_perm {n : Network ν} (h : n.vertices.Nodup) :
    (n.components.flatMap (·.vertices)).Perm n.vertices := by
  have hvertices : n.components.flatMap (·.vertices) = n.classes.flatten := by
    rw [components, List.flatMap_map]
    exact List.flatMap_id
  rw [hvertices]
  exact flatten_classes_perm h

end Network

end EntityDiagram
