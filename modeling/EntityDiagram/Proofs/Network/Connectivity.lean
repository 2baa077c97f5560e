import EntityDiagram.Proofs.Network.Classes
import Mathlib.Data.List.Pairwise
import Mathlib.Logic.Relation

/-! Classes against ways along edges: two vertices are in one class exactly when edges, each taken
in either direction, lead from one to the other. -/
namespace EntityDiagram

open Relation

variable {ν : Type}

def SameClass (classes : List (List ν)) (u v : ν) : Prop := ∃ c ∈ classes, u ∈ c ∧ v ∈ c

theorem SameClass.symm {classes : List (List ν)} {u v : ν} (h : SameClass classes u v) :
    SameClass classes v u := by
  obtain ⟨c, hc, hu, hv⟩ := h
  exact ⟨c, hc, hv, hu⟩

/-- Of disjoint classes only one holds a vertex. -/
theorem class_unique {classes : List (List ν)} (h : classes.flatten.Nodup) {c d : List ν}
    (hc : c ∈ classes) (hd : d ∈ classes) {v : ν} (hvc : v ∈ c) (hvd : v ∈ d) : c = d := by
  by_contra hne
  have : Std.Symm (List.Disjoint (α := ν)) := ⟨fun _ _ hab _ hb ha => hab ha hb⟩
  exact (List.nodup_flatten.mp h).2.forall hc hd hne hvc hvd

theorem SameClass.trans {classes : List (List ν)} (h : classes.flatten.Nodup) {u v w : ν}
    (huv : SameClass classes u v) (hvw : SameClass classes v w) : SameClass classes u w := by
  obtain ⟨c, hc, hu, hv⟩ := huv
  obtain ⟨d, hd, hvd, hw⟩ := hvw
  obtain rfl := class_unique h hc hd hv hvd
  exact ⟨c, hc, hu, hw⟩

theorem sameClass_self_iff {classes : List (List ν)} {v : ν} :
    SameClass classes v v ↔ v ∈ classes.flatten := by
  rw [List.mem_flatten]
  constructor
  · rintro ⟨c, hc, hv, -⟩
    exact ⟨c, hc, hv⟩
  · rintro ⟨c, hc, hv⟩
    exact ⟨c, hc, hv, hv⟩

theorem sameClass_of_eqvGen {classes : List (List ν)} (h : classes.flatten.Nodup) {u v : ν}
    (hu : u ∈ classes.flatten) (huv : EqvGen (SameClass classes) u v) : SameClass classes u v := by
  have hway : u = v ∨ SameClass classes u v := by
    clear hu
    induction huv with
    | rel u v huv => exact .inr huv
    | refl u => exact .inl rfl
    | symm u v _ ih => exact ih.imp Eq.symm SameClass.symm
    | trans u v w _ _ ihuv ihvw =>
      rcases ihuv with rfl | huv
      · exact ihvw
      · rcases ihvw with rfl | hvw
        · exact .inr huv
        · exact .inr (huv.trans h hvw)
  rcases hway with rfl | huv
  · exact sameClass_self_iff.mpr hu
  · exact huv

variable [DecidableEq ν]

theorem find?_class {classes : List (List ν)} (h : classes.flatten.Nodup) {c : List ν}
    (hc : c ∈ classes) {v : ν} (hv : v ∈ c) : classes.find? (v ∈ ·) = some c := by
  cases hfound : classes.find? (v ∈ ·) with
  | none =>
    have hnone := List.find?_eq_none.mp hfound c hc
    simp [hv] at hnone
  | some d =>
    have hvd : v ∈ d := by simpa using List.find?_some hfound
    rw [class_unique h (List.mem_of_find?_eq_some hfound) hc hvd hv]

/-- Joining two classes makes one of them and keeps the others. -/
theorem mem_joinClasses_iff {classes : List (List ν)} (h : classes.flatten.Nodup)
    {a b : List ν} (ha : a ∈ classes) (hb : b ∈ classes) {x y : ν} (hx : x ∈ a) (hy : y ∈ b)
    (hya : y ∉ a) {c : List ν} :
    c ∈ joinClasses classes (x, y) ↔ c = a ++ b ∨ c ∈ classes ∧ x ∉ c ∧ y ∉ c := by
  have hjoin : joinClasses classes (x, y) =
      (classes.filter (y ∉ ·)).map fun c => if x ∈ c then c ++ b else c := by
    simp [joinClasses, find?_class h ha hx, find?_class h hb hy, hya]
  simp only [hjoin, List.mem_map, List.mem_filter, decide_eq_true_eq]
  constructor
  · rintro ⟨d, ⟨hd, hyd⟩, rfl⟩
    by_cases hxd : x ∈ d
    · rw [if_pos hxd, class_unique h hd ha hxd hx]
      exact .inl rfl
    · rw [if_neg hxd]
      exact .inr ⟨hd, hxd, hyd⟩
  · rintro (rfl | ⟨hc, hxc, hyc⟩)
    · exact ⟨a, ⟨ha, hya⟩, if_pos hx⟩
    · exact ⟨c, ⟨hc, hyc⟩, if_neg hxc⟩

/-- Joining two vertices joins everything in their classes, and nothing else. -/
theorem sameClass_joinClasses_iff {classes : List (List ν)} (h : classes.flatten.Nodup)
    {x y : ν} (hx : x ∈ classes.flatten) (hy : y ∈ classes.flatten) {u v : ν} :
    SameClass (joinClasses classes (x, y)) u v ↔ SameClass classes u v ∨
      (SameClass classes u x ∧ SameClass classes y v) ∨
        (SameClass classes u y ∧ SameClass classes x v) := by
  obtain ⟨a, ha, hxa⟩ := List.mem_flatten.mp hx
  obtain ⟨b, hb, hyb⟩ := List.mem_flatten.mp hy
  by_cases hya : y ∈ a
  · have hsame : joinClasses classes (x, y) = classes := by
      simp [joinClasses, find?_class h ha hxa, find?_class h hb hyb, hya]
    have hxy : SameClass classes x y := ⟨a, ha, hxa, hya⟩
    rw [hsame, iff_self_or]
    rintro (⟨hux, hyv⟩ | ⟨huy, hxv⟩)
    · exact (hux.trans h hxy).trans h hyv
    · exact (huy.trans h hxy.symm).trans h hxv
  · have hina : ∀ {z}, SameClass classes z x → z ∈ a := by
      rintro z ⟨c, hc, hz, hxc⟩
      exact class_unique h hc ha hxc hxa ▸ hz
    have hinb : ∀ {z}, SameClass classes z y → z ∈ b := by
      rintro z ⟨c, hc, hz, hyc⟩
      exact class_unique h hc hb hyc hyb ▸ hz
    have hjoined := (mem_joinClasses_iff h ha hb hxa hyb hya (c := a ++ b)).mpr (.inl rfl)
    constructor
    · rintro ⟨c, hc, hu, hv⟩
      rcases (mem_joinClasses_iff h ha hb hxa hyb hya).mp hc with rfl | ⟨hc, -, -⟩
      · rcases List.mem_append.mp hu with hu | hu <;> rcases List.mem_append.mp hv with hv | hv
        · exact .inl ⟨a, ha, hu, hv⟩
        · exact .inr (.inl ⟨⟨a, ha, hu, hxa⟩, ⟨b, hb, hyb, hv⟩⟩)
        · exact .inr (.inr ⟨⟨b, hb, hu, hyb⟩, ⟨a, ha, hxa, hv⟩⟩)
        · exact .inl ⟨b, hb, hu, hv⟩
      · exact .inl ⟨c, hc, hu, hv⟩
    · rintro (⟨c, hc, hu, hv⟩ | ⟨hux, hyv⟩ | ⟨huy, hxv⟩)
      · by_cases hxc : x ∈ c
        · obtain rfl := class_unique h hc ha hxc hxa
          exact ⟨_, hjoined, List.mem_append_left b hu, List.mem_append_left b hv⟩
        by_cases hyc : y ∈ c
        · obtain rfl := class_unique h hc hb hyc hyb
          exact ⟨_, hjoined, List.mem_append_right a hu, List.mem_append_right a hv⟩
        exact ⟨c, (mem_joinClasses_iff h ha hb hxa hyb hya).mpr (.inr ⟨hc, hxc, hyc⟩), hu, hv⟩
      · exact ⟨_, hjoined, List.mem_append_left b (hina hux),
          List.mem_append_right a (hinb hyv.symm)⟩
      · exact ⟨_, hjoined, List.mem_append_right a (hinb huy),
          List.mem_append_left b (hina hxv.symm)⟩

/-- Joining along several edges joins what ways along them join. -/
theorem sameClass_foldl_joinClasses_iff {edges : List (ν × ν)} {classes : List (List ν)}
    (h : classes.flatten.Nodup)
    (hedges : ∀ e ∈ edges, e.1 ∈ classes.flatten ∧ e.2 ∈ classes.flatten) {u v : ν}
    (hu : u ∈ classes.flatten) : SameClass (edges.foldl joinClasses classes) u v ↔
      EqvGen (fun a b => SameClass classes a b ∨ (a, b) ∈ edges) u v := by
  induction edges generalizing classes with
  | nil =>
    simp only [List.foldl_nil, List.not_mem_nil, or_false]
    exact ⟨.rel u v, sameClass_of_eqvGen h hu⟩
  | cons edge rest ih =>
    obtain ⟨x, y⟩ := edge
    obtain ⟨hx, hy⟩ := hedges (x, y) List.mem_cons_self
    have hperm := flatten_joinClasses_perm h (x, y)
    have hstep := @sameClass_joinClasses_iff _ _ _ h _ _ hx hy
    have hrest : ∀ e ∈ rest, e.1 ∈ (joinClasses classes (x, y)).flatten ∧
        e.2 ∈ (joinClasses classes (x, y)).flatten := by
      intro e he
      simpa only [hperm.mem_iff] using hedges e (List.mem_cons_of_mem _ he)
    rw [List.foldl_cons, ih (hperm.nodup_iff.mpr h) hrest (hperm.mem_iff.mpr hu)]
    constructor
    · refine EqvGen.eqvGen_le ?_ u v
      rintro a b (hab | hab)
      · have hxy : EqvGen (fun a b => SameClass classes a b ∨ (a, b) ∈ (x, y) :: rest) x y :=
          .rel _ _ (.inr List.mem_cons_self)
        have hclass : ∀ {a b}, SameClass classes a b →
            EqvGen (fun a b => SameClass classes a b ∨ (a, b) ∈ (x, y) :: rest) a b :=
          fun hab => .rel _ _ (.inl hab)
        rcases hstep.mp hab with hab | ⟨hax, hyb⟩ | ⟨hay, hxb⟩
        · exact hclass hab
        · exact ((hclass hax).trans _ _ _ hxy).trans _ _ _ (hclass hyb)
        · exact ((hclass hay).trans _ _ _ (hxy.symm _ _)).trans _ _ _ (hclass hxb)
      · exact .rel _ _ (.inr (List.mem_cons_of_mem _ hab))
    · refine EqvGen.mono ?_ u v
      rintro a b (hab | hab)
      · exact .inl (hstep.mpr (.inl hab))
      · rcases List.mem_cons.mp hab with hab | hab
        · obtain ⟨rfl, rfl⟩ := Prod.mk.inj hab
          exact .inl (hstep.mpr (.inr (.inl
            ⟨sameClass_self_iff.mpr hx, sameClass_self_iff.mpr hy⟩)))
        · exact .inr hab

namespace Network

/-- Edges, each taken in either direction, lead from one vertex to the other. -/
def Connected (n : Network ν) : ν → ν → Prop := EqvGen fun u v => (u, v) ∈ n.edges

/-- The classes of a network are those of connected vertices. -/
theorem sameClass_classes_iff {n : Network ν} (h : n.vertices.Nodup)
    (hedges : ∀ e ∈ n.edges, e.1 ∈ n.vertices ∧ e.2 ∈ n.vertices) {u v : ν}
    (hu : u ∈ n.vertices) : SameClass n.classes u v ↔ n.Connected u v := by
  have hstart : (n.vertices.map fun v => [v]).flatten = n.vertices := by
    simp [← List.flatMap_def]
  rw [Connected, classes, sameClass_foldl_joinClasses_iff (by rwa [hstart]) (by rwa [hstart])
    (by rwa [hstart])]
  constructor
  · refine EqvGen.eqvGen_le ?_ u v
    rintro a b (⟨c, hc, ha, hb⟩ | hab)
    · obtain ⟨w, -, rfl⟩ := List.mem_map.mp hc
      rw [List.mem_singleton.mp ha, List.mem_singleton.mp hb]
      exact .refl w
    · exact .rel _ _ hab
  · exact EqvGen.mono (fun _ _ => .inr) u v

end Network

end EntityDiagram
