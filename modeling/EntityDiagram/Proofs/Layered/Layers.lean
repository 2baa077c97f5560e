import EntityDiagram.Layered.Component
import EntityDiagram.Proofs.Network.Fronts
import EntityDiagram.Proofs.Pairing
import EntityDiagram.Proofs.Scalar.Exact
import Mathlib.Tactic.Linarith

/-! The heights of layers. Ordering exchanges slots inside their layers only, and each layer stands
below the one before it by the gap, both with half the height of their highest slots. So along every
edge, turned round where that avoids a cycle, the upper box ends by the gap above the lower one. -/
namespace EntityDiagram.Layered

variable {ν : Type}

theorem exchange_perm (place : Slot ν → List Nat) (inHand : Slot ν) (rest : List (Slot ν)) :
    (exchange place inHand rest).1.Perm (inHand :: rest) := by
  induction rest generalizing inHand with
  | nil => exact .refl _
  | cons next rest ih =>
    simp only [exchange]
    split_ifs
    · exact ((ih inHand).cons next).trans (.swap _ _ _)
    · exact (ih next).cons inHand

section

variable [DecidableEq ν] (α : Type) [Scalar α] (neighbors : Slot ν → List (Slot ν))

theorem sortBy_perm {β : Type} (number : β → α) (l : List β) : (sortBy number l).Perm l := by
  have hsorted := (Sorting.sorted_perm (fun a b => decide (a.1 < b.1))
    (l.map fun b => (number b, b))).map Prod.snd
  simpa [sortBy, Function.comp_def] using hsorted

theorem orderLayer_perm (before layer : List (Slot ν)) :
    (orderLayer α neighbors before layer).1.Perm layer := by
  unfold orderLayer
  split_ifs
  · exact .refl _
  · have hsorted := sortBy_perm α (meanPlace (α := α) neighbors before layer) layer
    split
    · rename_i hnil
      rw [hnil] at hsorted
      exact hsorted
    · rename_i first rest hcons
      rw [hcons] at hsorted
      exact (exchange_perm _ first rest).trans hsorted

/-- A sweep exchanges slots inside their layers only. -/
theorem forall₂_sweep {layers base : List (List (Slot ν))}
    (h : List.Forall₂ List.Perm layers base) (before : List (Slot ν)) :
    List.Forall₂ List.Perm (sweep α neighbors before layers).1 base := by
  induction h generalizing before with
  | nil => exact .nil
  | cons hlayer _ ih => exact .cons ((orderLayer_perm α neighbors before _).trans hlayer) (ih _)

theorem forall₂_ordered (l : Layering ν) : List.Forall₂ List.Perm (l.ordered α) l.layers := by
  unfold Layering.ordered
  have hdown := forall₂_sweep α l.above
    (List.forall₂_same.mpr fun layer (_ : layer ∈ l.layers) => .refl layer) []
  apply forall₂_sweep
  split_ifs
  · have hup := forall₂_sweep α l.below (List.rel_reverse hdown) []
    simpa using List.rel_reverse hup
  · exact hdown

end

/-- Every layer begins below the top. -/
theorem le_layerCenters {gap half : Rat} {halves : List Rat} (hgap : 0 ≤ gap) (top : Rat)
    (hhalves : ∀ half ∈ halves, 0 ≤ half) {i : Nat} (hi : halves[i]? = some half) :
    ∃ center, (layerCenters gap top halves)[i]? = some center ∧ top + half ≤ center := by
  induction halves generalizing i top with
  | nil => simp at hi
  | cons first rest ih =>
    have hcons : layerCenters gap top (first :: rest) =
        (top + first) :: layerCenters gap (top + (2 * first + gap)) rest := rfl
    rw [hcons]
    cases i with
    | zero =>
      obtain rfl : first = half := by simpa using hi
      exact ⟨top + first, rfl, le_refl _⟩
    | succ i =>
      have hfirst := hhalves first List.mem_cons_self
      obtain ⟨center, hcenter, hle⟩ := ih (top + (2 * first + gap))
        (fun half hhalf => hhalves half (List.mem_cons_of_mem _ hhalf)) (by simpa using hi)
      exact ⟨center, by simpa using hcenter, by linarith⟩

/-- An earlier layer ends by the gap above a later one. -/
theorem layerCenters_apart {gap upper lower : Rat} {halves : List Rat} (hgap : 0 ≤ gap) (top : Rat)
    (hhalves : ∀ half ∈ halves, 0 ≤ half) {i j : Nat} (hij : i < j)
    (hi : halves[i]? = some upper) (hj : halves[j]? = some lower) : ∃ above below,
      (layerCenters gap top halves)[i]? = some above ∧
        (layerCenters gap top halves)[j]? = some below ∧
          above + upper + gap ≤ below - lower := by
  induction halves generalizing i j top with
  | nil => simp at hi
  | cons first rest ih =>
    have hrest : ∀ half ∈ rest, 0 ≤ half :=
      fun half hhalf => hhalves half (List.mem_cons_of_mem _ hhalf)
    have hcons : layerCenters gap top (first :: rest) =
        (top + first) :: layerCenters gap (top + (2 * first + gap)) rest := rfl
    rw [hcons]
    obtain ⟨j, rfl⟩ : ∃ k, j = k + 1 := ⟨j - 1, by omega⟩
    rw [List.getElem?_cons_succ] at hj ⊢
    cases i with
    | zero =>
      obtain rfl : first = upper := by simpa using hi
      obtain ⟨below, hbelow, hle⟩ := le_layerCenters hgap (top + (2 * first + gap)) hrest hj
      exact ⟨top + first, below, rfl, hbelow, by linarith⟩
    | succ i =>
      rw [List.getElem?_cons_succ] at hi ⊢
      exact ih (top + (2 * first + gap)) hrest (by omega) hi hj

theorem half_le_halfHeight (height : Slot ν → Rat) {layer : List (Slot ν)} {s : Slot ν}
    (hs : s ∈ layer) : height s / 2 ≤ halfHeight height layer :=
  Scalar.le_greatestOf (List.mem_map_of_mem (f := fun s => height s / 2) hs)

variable [DecidableEq ν]

/-- A vertex stands in the layer of its number. -/
theorem exists_layer (α : Type) [Scalar α] {l : Layering ν} {v : ν} (hv : v ∈ l.fronts.flatten) :
    ∃ layer, (l.ordered α)[l.rank v]? = some layer ∧ .vertex v ∈ layer := by
  obtain ⟨front, hfront, hmem⟩ := List.mem_flatten.mp hv
  have hlt : l.rank v < l.fronts.length :=
    List.findIdx_lt_length_of_exists ⟨front, hfront, by simpa using hmem⟩
  have hrank : v ∈ l.fronts[l.rank v] := of_decide_eq_true (List.findIdx_getElem (w := hlt))
  have hlayer : l.layers[l.rank v]? = some (l.fronts[l.rank v].map .vertex ++
      (l.crossing (l.rank v)).map (.bend · (l.rank v))) := by
    simp [Layering.layers, hlt]
  obtain ⟨layer, hordered, hperm⟩ := Pairing.exists_left_partner_at (forall₂_ordered α l) hlayer
  refine ⟨layer, hordered, hperm.mem_iff.mpr (List.mem_append_left _ ?_)⟩
  exact List.mem_map_of_mem hrank

/-- The vertical center of a vertex of a component. -/
def centerY {α : Type} [Scalar α] (gaps : Gaps α) (size : ν → Size α) (n : Network ν) (v : ν) : α :=
  let slot := slotSize size (bendSize size n.vertices)
  let l := Layering.ofNetwork n
  (rows gaps.layer (fun s => (slot s).height) (l.ordered α))[l.rank v]?.getD 0

theorem exists_centers_eq {α : Type} [Scalar α] (gaps : Gaps α) (size : ν → Size α)
    (n : Network ν) : ∃ x : ν → α,
      centers gaps size n = n.vertices.map fun v => ⟨x v, centerY gaps size n v⟩ := ⟨_, rfl⟩

section

variable {n : Network ν} (h : n.IsSimple)
include h

/-- No layer has a negative height: each holds a vertex. -/
theorem halfHeight_nonneg {size : ν → Size Rat} (hsize : ∀ v ∈ n.vertices, 0 ≤ (size v).height)
    (bend : Size Rat) : ∀ layer ∈ (Layering.ofNetwork n).ordered Rat,
      0 ≤ halfHeight (fun s => (slotSize size bend s).height) layer := by
  intro layer hlayer
  obtain ⟨i, hi⟩ := List.mem_iff_getElem?.mp hlayer
  obtain ⟨base, hbase, hperm⟩ :=
    Pairing.exists_left_partner_at (forall₂_ordered Rat (Layering.ofNetwork n)).flip hi
  obtain ⟨k, hk, rfl⟩ := List.mem_mapIdx.mp (List.mem_of_getElem? hbase)
  obtain ⟨v, hvfront, hv⟩ := Network.exists_mem_of_mem_fronts h _ (List.getElem_mem hk)
  have hmem : Slot.vertex v ∈ layer :=
    hperm.mem_iff.mpr (List.mem_append_left _ (List.mem_map_of_mem hvfront))
  have hheight := hsize v hv
  have hhalf := half_le_halfHeight (fun s => (slotSize size bend s).height) hmem
  have hvertex : (slotSize size bend (.vertex v)).height = (size v).height := rfl
  rw [hvertex] at hhalf
  linarith

/-- Along every edge, turned round where that avoids a cycle, the upper vertex ends by the gap above
the lower one. -/
theorem centerY_apart {gaps : Gaps Rat} (hgap : 0 ≤ gaps.layer) {size : ν → Size Rat}
    (hsize : ∀ v ∈ n.vertices, 0 ≤ (size v).height) {u w : ν} (huw : (u, w) ∈ n.oriented.edges) :
    centerY gaps size n u + (size u).height / 2 + gaps.layer ≤
      centerY gaps size n w - (size w).height / 2 := by
  let l := Layering.ofNetwork n
  let height (s : Slot ν) : Rat := (slotSize size (bendSize size n.vertices) s).height
  obtain ⟨hu, hw⟩ := h.oriented.closed u w huw
  obtain ⟨upper, hupper, huupper⟩ := exists_layer Rat (l := l) (Network.mem_flatten_fronts h hu)
  obtain ⟨lower, hlower, hwlower⟩ := exists_layer Rat (l := l) (Network.mem_flatten_fronts h hw)
  have hhalves : ∀ half ∈ (l.ordered Rat).map (halfHeight height), 0 ≤ half := by
    intro half hhalf
    obtain ⟨layer, hlayer, rfl⟩ := List.mem_map.mp hhalf
    exact halfHeight_nonneg h hsize _ layer hlayer
  obtain ⟨above, below, habove, hbelow, hapart⟩ := layerCenters_apart hgap 0 hhalves
    (Network.findIdx_fronts_lt h huw) (i := l.rank u) (j := l.rank w)
    (by rw [List.getElem?_map, hupper, Option.map_some])
    (by rw [List.getElem?_map, hlower, Option.map_some])
  have huhalf := half_le_halfHeight height huupper
  have hwhalf := half_le_halfHeight height hwlower
  have huy : centerY gaps size n u = above := congrArg (·.getD 0) habove
  have hwy : centerY gaps size n w = below := congrArg (·.getD 0) hbelow
  have huheight : height (.vertex u) = (size u).height := rfl
  have hwheight : height (.vertex w) = (size w).height := rfl
  rw [huheight] at huhalf
  rw [hwheight] at hwhalf
  rw [huy, hwy]
  linarith

end

end EntityDiagram.Layered
