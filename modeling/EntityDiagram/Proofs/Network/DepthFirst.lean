import EntityDiagram.Network.DepthFirst
import Mathlib.Data.List.Nodup
import Mathlib.Data.List.Perm.Subperm

/-! The order in which a depth-first search finishes its vertices. The path of a visit, oldest
vertex first, and behind it the finished vertices, newest first, form one list; visits insert
vertices into it and never exchange two. So along every edge the later vertex of this list is
finished first, unless the edge leads back onto the path, and then it is the other way round. -/
namespace EntityDiagram

/-- In a list without repeats what stands before has the smaller index. -/
theorem idxOf_lt_idxOf_of_sublist {ν : Type} [DecidableEq ν] {l : List ν} (h : l.Nodup) {a b : ν}
    (hab : [a, b].Sublist l) : l.idxOf a < l.idxOf b := by
  induction l with
  | nil => cases hab
  | cons c rest ih =>
    obtain ⟨hc, hrest⟩ := List.nodup_cons.mp h
    cases hab with
    | cons _ hab =>
      have ha : c ≠ a := by
        rintro rfl
        exact hc (hab.subset (by simp))
      have hb : c ≠ b := by
        rintro rfl
        exact hc (hab.subset (by simp))
      have := ih hrest hab
      rw [List.idxOf_cons_ne _ ha, List.idxOf_cons_ne _ hb]
      omega
    | cons_cons _ hb =>
      have hne : a ≠ b := by
        rintro rfl
        exact hc (hb.subset (by simp))
      rw [List.idxOf_cons_self, List.idxOf_cons_ne _ hne]
      omega

namespace DepthFirst

variable {ν : Type} {successors : ν → List ν}

/-- An edge that was met as leading back onto the search path. -/
def Closes (search : DepthFirst ν) (u w : ν) : Prop :=
  ∃ c ∈ search.closings, c.edge? = some (u, w)

/-- What visits along a path keep. -/
structure Orders (successors : ν → List ν) (path : List ν) (search : DepthFirst ν) : Prop where
  nodup : (path.reverse ++ search.finished).Nodup
  backward : ∀ u w, search.Closes u w →
    w = u ∨ [w, u].Sublist (path.reverse ++ search.finished)
  forward : ∀ u ∈ search.finished, ∀ w ∈ successors u,
    search.Closes u w ∨ [u, w].Sublist search.finished

/-- A vertex was dealt with at the end of a path: it is finished, or the edge to it leads back. -/
def Meets (path : List ν) (search : DepthFirst ν) (w : ν) : Prop :=
  w ∈ search.finished ∨ ∃ u ∈ path.head?, search.Closes u w

/-- A search goes on from another: nothing that was finished or met is lost or exchanged. -/
structure Extends (search later : DepthFirst ν) : Prop where
  finished : search.finished.Sublist later.finished
  closings : search.closings ⊆ later.closings

theorem Extends.refl (search : DepthFirst ν) : search.Extends search := ⟨.refl _, fun _ h => h⟩

variable {path : List ν} {search later last : DepthFirst ν} {u w : ν}

theorem Extends.trans (h : search.Extends later) (h' : later.Extends last) :
    search.Extends last :=
  ⟨h.finished.trans h'.finished, fun _ hc => h'.closings (h.closings hc)⟩

theorem Extends.closes (h : search.Extends later) (hclose : search.Closes u w) :
    later.Closes u w := by
  obtain ⟨c, hc, hedge⟩ := hclose
  exact ⟨c, h.closings hc, hedge⟩

theorem Extends.meets (h : search.Extends later) (hmeets : Meets path search w) :
    Meets path later w := by
  rcases hmeets with hw | ⟨u, hu, hclose⟩
  · exact .inl (h.finished.subset hw)
  · exact .inr ⟨u, hu, h.closes hclose⟩

/-- Some vertices were dealt with, one after the other, at the end of a path. -/
structure Deals (successors : ν → List ν) (path ws : List ν) (search later : DepthFirst ν) :
    Prop where
  orders : Orders successors path later
  goesOn : search.Extends later
  meets : ∀ w ∈ ws, Meets path later w

/-- A loop deals with all of its vertices if each round deals with one. -/
theorem deals_foldl {visitOne : DepthFirst ν → ν → DepthFirst ν} {ws : List ν}
    (h : Orders successors path search)
    (hround : ∀ w ∈ ws, ∀ search, Orders successors path search →
      Deals successors path [w] search (visitOne search w)) :
    Deals successors path ws search (ws.foldl visitOne search) := by
  induction ws generalizing search with
  | nil => exact ⟨h, .refl _, by simp⟩
  | cons w rest ih =>
    have hfirst := hround w List.mem_cons_self search h
    have hrest := ih hfirst.orders fun w hw => hround w (List.mem_cons_of_mem _ hw)
    refine ⟨hrest.orders, hfirst.goesOn.trans hrest.goesOn, ?_⟩
    intro v hv
    rcases List.mem_cons.mp hv with rfl | hv
    · exact hrest.goesOn.meets (hfirst.meets v List.mem_cons_self)
    · exact hrest.meets v hv

/-- An edge onto the path is recorded. -/
theorem Orders.deals_close (h : Orders successors path search) (hw : w ∈ path) :
    Deals successors path [w] search
      { search with closings := search.closings ++ [⟨path, w⟩] } := by
  obtain ⟨u, older, rfl⟩ := List.exists_cons_of_ne_nil (List.ne_nil_of_mem hw)
  have hgoesOn : search.Extends
      { search with closings := search.closings ++ [⟨u :: older, w⟩] } :=
    ⟨.refl _, List.subset_append_left _ _⟩
  have hclose : Closes { search with closings := search.closings ++ [⟨u :: older, w⟩] } u w :=
    ⟨⟨u :: older, w⟩, by simp, rfl⟩
  refine ⟨⟨h.nodup, ?_, ?_⟩, hgoesOn, ?_⟩
  · rintro a b ⟨c, hc, hedge⟩
    rcases List.mem_append.mp hc with hc | hc
    · exact h.backward a b ⟨c, hc, hedge⟩
    · rw [List.mem_singleton.mp hc] at hedge
      cases hedge
      rcases List.mem_cons.mp hw with rfl | hw
      · exact .inl rfl
      · right
        have holder : [w].Sublist older.reverse := by simpa using hw
        have hpath : [w, u].Sublist (u :: older).reverse := by
          simpa using holder.append (List.Sublist.refl [u])
        exact hpath.trans (List.sublist_append_left _ _)
  · intro a ha b hb
    exact (h.forward a ha b hb).imp_left hgoesOn.closes
  · intro v hv
    rw [List.mem_singleton.mp hv]
    exact .inr ⟨u, rfl, hclose⟩

/-- A new vertex is put between the path and what is finished. -/
theorem Orders.push (h : Orders successors path search) (hpath : w ∉ path)
    (hfinished : w ∉ search.finished) : Orders successors (w :: path) search := by
  have hinsert : (path.reverse ++ search.finished).Sublist
      ((w :: path).reverse ++ search.finished) := by
    rw [List.reverse_cons, List.append_assoc]
    exact (List.Sublist.refl _).append (List.sublist_cons_self _ _)
  refine ⟨?_, ?_, h.forward⟩
  · have hperm : ((w :: path).reverse ++ search.finished).Perm
        (w :: (path.reverse ++ search.finished)) := by simp
    rw [hperm.nodup_iff, List.nodup_cons]
    exact ⟨by simp [hpath, hfinished], h.nodup⟩
  · intro a b hclose
    exact (h.backward a b hclose).imp_right fun hba => hba.trans hinsert

/-- A vertex all of whose successors were dealt with is finished. -/
theorem Orders.finish (h : Orders successors (w :: path) search)
    (hmeets : ∀ v ∈ successors w, Meets (w :: path) search v) :
    Orders successors path { search with finished := w :: search.finished } := by
  have hsame : path.reverse ++ w :: search.finished =
      (w :: path).reverse ++ search.finished := by simp
  refine ⟨?_, ?_, ?_⟩
  · rw [hsame]
    exact h.nodup
  · intro a b hclose
    rw [hsame]
    exact h.backward a b hclose
  · intro a ha b hb
    rcases List.mem_cons.mp ha with rfl | ha
    · rcases hmeets b hb with hfinished | ⟨u, hu, hclose⟩
      · exact .inr ((List.singleton_sublist.mpr hfinished).cons_cons a)
      · cases hu
        exact .inl hclose
    · exact (h.forward a ha b hb).imp_right fun hab => hab.cons w

variable [DecidableEq ν] {vertices : List ν}

/-- A visit deals with its vertex. No path is longer than the list of all vertices, so the depth is
never used up. -/
theorem deals_visit (closed : ∀ v ∈ vertices, successors v ⊆ vertices) {depth : Nat}
    (hdepth : vertices.length < depth + path.length) (hpath : path ⊆ vertices)
    (hw : w ∈ vertices) (h : Orders successors path search) :
    Deals successors path [w] search (visit successors depth path search w) := by
  induction depth generalizing path search w with
  | zero =>
    have hnodup : path.Nodup := List.nodup_reverse.mp (List.nodup_append'.mp h.nodup).1
    have := (hnodup.subperm hpath).length_le
    omega
  | succ depth ih =>
    rw [visit]
    split_ifs with hmem hfinished
    · exact h.deals_close hmem
    · exact ⟨h, .refl _, by simp [Meets, hfinished]⟩
    · have hinner : Deals successors (w :: path) (successors w) search
          ((successors w).foldl (visit successors depth (w :: path)) search) := by
        apply deals_foldl (h.push hmem hfinished)
        intro v hv later hlater
        apply ih _ _ (closed w hw hv) hlater
        · rw [List.length_cons]
          omega
        · exact List.cons_subset.mpr ⟨hw, hpath⟩
      refine ⟨hinner.orders.finish hinner.meets, ?_, by simp [Meets]⟩
      exact ⟨hinner.goesOn.finished.trans (List.sublist_cons_self _ _), hinner.goesOn.closings⟩

/-- A search from some roots finishes all of them. -/
theorem deals_run (closed : ∀ v ∈ vertices, successors v ⊆ vertices) {roots : List ν}
    (hroots : roots ⊆ vertices) :
    Deals successors [] roots start (run vertices successors roots) := by
  apply deals_foldl ⟨by simp [start], by simp [start, Closes], by simp [start]⟩
  intro w hw search hsearch
  exact deals_visit closed (by simp) (by simp) (hroots hw) hsearch

theorem mem_finished_run (closed : ∀ v ∈ vertices, successors v ⊆ vertices) {roots : List ν}
    (hroots : roots ⊆ vertices) (hw : w ∈ roots) :
    w ∈ (run vertices successors roots).finished := by
  rcases (deals_run closed hroots).meets w hw with hfinished | ⟨u, hu, -⟩
  · exact hfinished
  · cases hu

end DepthFirst

end EntityDiagram
