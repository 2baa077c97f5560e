import EntityDiagram.Layout
import EntityDiagram.Proofs.Network.Classes

/-! Which boxes a packing gives corners to: those of its components and its row, each once. Every
entity of a diagram stands in one component, so every entity gets exactly one corner. -/
namespace EntityDiagram

namespace Layered

variable {α : Type} [Scalar α]

theorem map_fst_moveTo (x y : α) (component : List (Placed α)) :
    (moveTo x y component).map (·.1) = component.map (·.name) := by
  simp [moveTo, Function.comp_def]

theorem map_fst_packFrom (padding x bottom : α) (components : List (List (Placed α))) :
    (packFrom padding x bottom components).corners.map (·.1) =
      components.flatMap fun component => component.map (·.name) := by
  induction components generalizing x bottom with
  | nil => rfl
  | cons component rest ih =>
    rw [packFrom, List.map_append, map_fst_moveTo, ih, List.flatMap_cons]

/-- Every component is moved as a whole. -/
theorem exists_moveTo_subset (padding x bottom : α) {components : List (List (Placed α))}
    {component : List (Placed α)} (h : component ∈ components) : ∃ place,
      moveTo place padding component ⊆ (packFrom padding x bottom components).corners := by
  induction components generalizing x bottom with
  | nil => contradiction
  | cons first rest ih =>
    rw [packFrom]
    rcases List.mem_cons.mp h with rfl | h
    · exact ⟨x, List.subset_append_left _ _⟩
    · obtain ⟨place, hplace⟩ := ih _ _ h
      exact ⟨place, List.Subset.trans hplace (List.subset_append_right _ _)⟩

/-- A row that comes to its end has a corner for every box. -/
theorem map_fst_row {padding x y : α} {boxes : List (String × Size α)}
    (h : (row padding x y boxes).result = .ok ()) :
    (row padding x y boxes).corners.map (·.1) = boxes.map (·.1) := by
  induction boxes generalizing x with
  | nil => rfl
  | cons box rest ih =>
    rw [row] at h ⊢
    cases hnext : nextPlace padding x box.2.width with
    | error fault =>
      rw [hnext] at h
      contradiction
    | ok next =>
      rw [hnext] at h
      dsimp only
      rw [List.map_cons, ih h, List.map_cons]

theorem map_fst_pack {padding : α} {components : List (List (Placed α))}
    {singles : List (String × Size α)} (h : (pack padding components singles).result = .ok ()) :
    (pack padding components singles).corners.map (·.1) =
      (components.flatMap fun component => component.map (·.name)) ++ singles.map (·.1) := by
  unfold pack at h ⊢
  split at h
  · rename_i hempty
    obtain ⟨hcomponents, hsingles⟩ := Bool.and_eq_true_iff.mp hempty
    rw [if_pos hempty, List.isEmpty_iff.mp hcomponents, List.isEmpty_iff.mp hsingles]
    rfl
  · rename_i hboxes
    rw [if_neg hboxes]
    cases hmargin : Scalar.measured padding with
    | error fault =>
      rw [hmargin] at h
      contradiction
    | ok margin =>
      rw [hmargin] at h
      dsimp only at h ⊢
      rw [List.map_append, map_fst_packFrom, map_fst_row h]

/-- Where the padding fits a measurement, only the row can fail. -/
theorem result_pack {padding margin : α} (hmargin : Scalar.measured padding = .ok margin)
    (components : List (List (Placed α))) {singles : List (String × Size α)}
    (hrow : ∀ y, (row padding margin y singles).result = .ok ()) :
    (pack padding components singles).result = .ok () := by
  unfold pack
  rw [hmargin]
  split
  · rfl
  · exact hrow _

end Layered

/-- Erasing what occurs again leaves no repeats. -/
theorem nodup_eraseDups {β : Type} [DecidableEq β] (l : List β) : l.eraseDups.Nodup := by
  induction hn : l.length using Nat.strongRecOn generalizing l with
  | ind n ih =>
    cases l with
    | nil => exact List.nodup_nil
    | cons b rest =>
      rw [List.eraseDups_cons, List.nodup_cons]
      constructor
      · simp
      · apply ih _ _ _ rfl
        have := List.length_filter_le (fun c => !c == b) rest
        rw [← hn, List.length_cons]
        omega

namespace Diagram

variable {α : Type} (d : Diagram α)

theorem nodup_vertexNames : d.vertexNames.Nodup := nodup_eraseDups _

theorem mem_vertexNames_iff {name : String} :
    name ∈ d.vertexNames ↔ name ∈ d.nodes.map (·.name) := List.mem_eraseDups

theorem singles_perm : d.singles.Perm
    ((d.network.components.filter (·.vertices.length = 1)).flatMap (·.vertices)) :=
  List.mergeSort_perm _ _

variable [Scalar α] (o : Options)

theorem map_name_placedComponent {component : Network String} {centers : List (Point α)}
    (h : centers.length = component.vertices.length) :
    (d.placedComponent o component centers).map (·.name) = component.vertices := by
  have hnames : (d.placedComponent o component centers).map (·.name) =
      (component.vertices.zip centers).map Prod.fst := by
    rw [placedComponent, List.map_map]
    rfl
  rw [hnames, List.map_fst_zip (by omega)]

/-- Whatever centers a component is given, as many as it has vertices, every entity gets exactly one
corner when all corners are found. -/
theorem map_fst_packedCorners_perm {centers : Network String → List (Point α)}
    (h : ∀ component, (centers component).length = component.vertices.length)
    (hresult : (d.packedCorners o centers).result = .ok ()) :
    ((d.packedCorners o centers).corners.map (·.1)).Perm d.vertexNames := by
  have hjoined : ∀ components : List (Network String),
      (components.map fun c => d.placedComponent o c (centers c)).flatMap
        (fun placed => placed.map (·.name)) = components.flatMap (·.vertices) := by
    intro components
    rw [List.flatMap_map]
    exact List.flatMap_congr fun c _ => d.map_name_placedComponent o (h c)
  have hsingles : (d.singles.map fun name => (name, d.layoutSize o name)).map (·.1) =
      d.singles := by
    simp [Function.comp_def]
  rw [packedCorners] at hresult ⊢
  rw [Layered.map_fst_pack hresult, hjoined, hsingles]
  refine (d.singles_perm.append_left _).trans (List.perm_append_comm.trans ?_)
  rw [← List.flatMap_append]
  have hsplit := List.filter_append_perm (fun c : Network String => c.vertices.length = 1)
    d.network.components
  have hcomponents := Network.flatMap_components_perm (n := d.network) d.nodup_vertexNames
  refine .trans ?_ hcomponents
  apply List.Perm.flatMap_right
  simpa using hsplit

theorem name_mem_packedCorners {centers : Network String → List (Point α)}
    (h : ∀ component, (centers component).length = component.vertices.length)
    (hresult : (d.packedCorners o centers).result = .ok ()) :
    ∀ n ∈ d.nodes, n.name ∈ (d.packedCorners o centers).corners.map (·.1) := by
  intro n hn
  rw [(d.map_fst_packedCorners_perm o h hresult).mem_iff, mem_vertexNames_iff]
  exact List.mem_map_of_mem hn

end Diagram

end EntityDiagram
