import EntityDiagram.Proofs.Layout.Columns
import EntityDiagram.Proofs.Layout.Connections
import EntityDiagram.Proofs.Layout.Placement
import EntityDiagram.Proofs.Schema.Names

/-! What a layered arrangement keeps apart, in exact numbers: entities that no connections hold
together. Where boxes stand inside their component is left open; it may be any place. -/
namespace EntityDiagram

/-- The gaps that the options ask for inside components. -/
def Options.gaps {α : Type} [Scalar α] (o : Options) : Layered.Gaps α :=
  ⟨Scalar.ofInt o.nodeGap, Scalar.ofInt o.layerGap⟩

/-- The size that a layout keeps free for an entity: its own, or that of a cell. -/
def Node.layoutSize {α : Type} [Scalar α] (n : Node α) (o : Options) : Size α :=
  n.bounds.getD ⟨Scalar.ofInt o.cellWidthSize, Scalar.ofInt o.cellHeightSize⟩

/-- The box of an entity at a corner. -/
def Node.boxAt (n : Node Rat) (o : Options) (corner : Point Rat) : Rect Rat :=
  ⟨corner.x, corner.y, (n.layoutSize o).width, (n.layoutSize o).height⟩

namespace Diagram

open Layered

/-- Corners that keep apart what no connections hold together: everything inside the padding, the
entities that stand alone in a row, in order of declaration, and the row below everything else. -/
structure Separates (d : Diagram Rat) (o : Options) (corner : String → Point Rat) : Prop where
  inside : ∀ n ∈ d.nodes, (o.paddingSize : Rat) ≤ (corner n.name).x ∧
    (o.paddingSize : Rat) ≤ (corner n.name).y
  apart : ∀ n ∈ d.nodes, ∀ m ∈ d.nodes, ¬ d.Connected n.name m.name →
    Rect.ApartBy o.paddingSize (n.boxAt o (corner n.name)) (m.boxAt o (corner m.name))
  disjoint : ∀ n ∈ d.nodes, ∀ m ∈ d.nodes, ¬ d.Connected n.name m.name → ∀ p,
    (n.boxAt o (corner n.name)).Covers p → ¬ (m.boxAt o (corner m.name)).Covers p
  row : d.nodes.Pairwise fun n m => d.IsIsolated n.name → d.IsIsolated m.name →
    (corner n.name).y = (corner m.name).y ∧
      Rect.LeftOf o.paddingSize (n.boxAt o (corner n.name)) (m.boxAt o (corner m.name))
  below : ∀ n ∈ d.nodes, ∀ m ∈ d.nodes, d.IsIsolated n.name → ¬ d.IsIsolated m.name →
    Rect.Above o.paddingSize (m.boxAt o (corner m.name)) (n.boxAt o (corner n.name))

theorem layoutSize_eq {α : Type} [Scalar α] {d : Diagram α} (h : (d.nodes.map (·.name)).Nodup)
    (o : Options) {n : Node α} (hn : n ∈ d.nodes) : d.layoutSize o n.name = n.layoutSize o := by
  have hreverse : (d.nodes.reverse.map (·.name)).Nodup := by
    rwa [List.map_reverse, List.nodup_reverse]
  rw [layoutSize, find?_key_eq_some hreverse (List.mem_reverse.mpr hn), Option.bind_some]
  rfl

variable {d : Diagram Rat} {o : Options} {centers : Network String → List (Point Rat)}

/-- The components of several entities, with their boxes. -/
def joined (d : Diagram Rat) (o : Options) (centers : Network String → List (Point Rat)) :
    List (List (Placed Rat)) :=
  (d.network.components.filter (·.vertices.length ≠ 1)).map fun c =>
    d.placedComponent o c (centers c)

section

variable (hcenters : ∀ component, (centers component).length = component.vertices.length)
include hcenters

theorem exists_class_of_mem_joined {c : List (Placed Rat)} (hc : c ∈ d.joined o centers) :
    c.map (·.name) ∈ d.network.classes := by
  obtain ⟨component, hcomponent, rfl⟩ := List.mem_map.mp hc
  rw [map_name_placedComponent d o (hcenters component)]
  obtain ⟨vertices, hvertices, rfl⟩ := List.mem_map.mp (List.mem_filter.mp hcomponent).1
  exact hvertices

theorem sized_of_mem_joined (hsizes : ∀ n ∈ d.nodes, 0 ≤ (d.layoutSize o n.name).width ∧
      0 ≤ (d.layoutSize o n.name).height) {c : List (Placed Rat)} (hc : c ∈ d.joined o centers) :
    Sized (d.layoutSize o) c := by
  have hdeclared : ∀ p ∈ c, ∃ n ∈ d.nodes, n.name = p.name := by
    intro p hp
    have hmem := List.mem_flatten_of_mem (exists_class_of_mem_joined hcenters hc)
      (List.mem_map_of_mem hp)
    have hvertex := (Network.flatten_classes_perm d.nodup_vertexNames).subset hmem
    exact List.mem_map.mp (d.mem_vertexNames_iff.mp hvertex)
  have hsize : ∀ p ∈ c, p.size = d.layoutSize o p.name := by
    intro p hp
    obtain ⟨component, -, rfl⟩ := List.mem_map.mp hc
    obtain ⟨⟨v, center⟩, -, rfl⟩ := List.mem_map.mp hp
    rfl
  refine ⟨hsize, ?_, ?_⟩
  · intro p hp
    obtain ⟨n, hn, hname⟩ := hdeclared p hp
    rw [hsize p hp, ← hname]
    exact (hsizes n hn).1
  · intro p hp
    obtain ⟨n, hn, hname⟩ := hdeclared p hp
    rw [hsize p hp, ← hname]
    exact (hsizes n hn).2

end

theorem boxAt_eq (names : (d.nodes.map (·.name)).Nodup) {n : Node Rat} (hn : n ∈ d.nodes)
    (corner : Point Rat) : n.boxAt o corner = Layered.boxAt (d.layoutSize o) (n.name, corner) := by
  rw [Layered.boxAt, layoutSize_eq names o hn]
  rfl

section

variable {columns row : List (String × Point Rat)} {corner : String → Point Rat}
  (names : (d.nodes.map (·.name)).Nodup)
  (hpacking : Packing (d.layoutSize o) o.paddingSize (d.joined o centers) d.singles columns row)
  (hcorner : ∀ entry ∈ columns ++ row, entry.2 = corner entry.1)

include hcorner in
lemma mem_entries {entries : List (String × Point Rat)} (hsubset : entries ⊆ columns ++ row)
    {name : String} (hname : name ∈ entries.map (·.1)) : (name, corner name) ∈ entries := by
  obtain ⟨entry, hmem, rfl⟩ := List.mem_map.mp hname
  rw [← hcorner entry (hsubset hmem)]
  exact hmem

include hpacking hcorner

theorem mem_row {n : Node Rat} (hn : n ∈ d.nodes) (hisolated : d.IsIsolated n.name) :
    (n.name, corner n.name) ∈ row := by
  apply mem_entries hcorner (List.subset_append_right _ _)
  rw [hpacking.map_fst_row]
  exact (mem_singles_iff_isIsolated (List.mem_map_of_mem hn)).mpr hisolated

theorem mem_columns (hall : ∀ n ∈ d.nodes, n.name ∈ (columns ++ row).map (·.1)) {n : Node Rat}
    (hn : n ∈ d.nodes) (hjoined : ¬ d.IsIsolated n.name) :
    (n.name, corner n.name) ∈ columns := by
  apply mem_entries hcorner (List.subset_append_left _ _)
  have hname := hall n hn
  rw [List.map_append, List.mem_append, hpacking.map_fst_row] at hname
  apply hname.resolve_right
  intro hsingle
  exact hjoined ((mem_singles_iff_isIsolated (List.mem_map_of_mem hn)).mp hsingle)

include names

/-- Entities that stand alone follow each other in order of declaration. -/
theorem pairwise_leftOf : d.nodes.Pairwise fun n m => d.IsIsolated n.name →
    d.IsIsolated m.name → (corner n.name).y = (corner m.name).y ∧ Rect.LeftOf o.paddingSize
      (n.boxAt o (corner n.name)) (m.boxAt o (corner m.name)) := by
  have hrow : row = d.singles.map fun name => (name, corner name) := by
    rw [← hpacking.map_fst_row, List.map_map, List.map_congr_left (g := id), List.map_id]
    intro entry hmem
    exact Prod.ext rfl (hcorner entry (List.mem_append_right _ hmem)).symm
  have hpairs := hpacking.row_pairwise
  rw [hrow, List.pairwise_map, singles_eq_filter names, List.pairwise_filter,
    List.pairwise_map] at hpairs
  refine hpairs.imp_of_mem ?_
  intro n m hn hm hpair hnisolated hmisolated
  rw [boxAt_eq names hn, boxAt_eq names hm]
  apply hpair
  · simpa using (mem_singles_iff_isIsolated (List.mem_map_of_mem hn)).mpr hnisolated
  · simpa using (mem_singles_iff_isIsolated (List.mem_map_of_mem hm)).mpr hmisolated

variable (hall : ∀ n ∈ d.nodes, n.name ∈ (columns ++ row).map (·.1))
include hall

theorem above_of_isIsolated {n m : Node Rat} (hn : n ∈ d.nodes) (hm : m ∈ d.nodes)
    (hisolated : d.IsIsolated n.name) (hjoined : ¬ d.IsIsolated m.name) :
    Rect.Above o.paddingSize (m.boxAt o (corner m.name)) (n.boxAt o (corner n.name)) := by
  rw [boxAt_eq names hn, boxAt_eq names hm]
  exact hpacking.row_below _ (mem_columns hpacking hcorner hall hm hjoined) _
    (mem_row hpacking hcorner hn hisolated)

/-- Entities that are not connected stand in different columns, in different places of the row, or
one in a column and one in the row. -/
theorem apartBy_of_not_connected
    (hcenters : ∀ component, (centers component).length = component.vertices.length)
    {n m : Node Rat} (hn : n ∈ d.nodes) (hm : m ∈ d.nodes)
    (hapart : ¬ d.Connected n.name m.name) :
    Rect.ApartBy o.paddingSize (n.boxAt o (corner n.name)) (m.boxAt o (corner m.name)) := by
  by_cases hnisolated : d.IsIsolated n.name <;> by_cases hmisolated : d.IsIsolated m.name
  · have hne : n ≠ m := by
      rintro rfl
      exact hapart (.refl n.name)
    have hpairs : d.nodes.Pairwise fun n m => d.IsIsolated n.name → d.IsIsolated m.name →
        Rect.ApartBy o.paddingSize (n.boxAt o (corner n.name)) (m.boxAt o (corner m.name)) :=
      (pairwise_leftOf names hpacking hcorner).imp fun hpair hn hm => .inl (.inl (hpair hn hm).2)
    have : Std.Symm fun n m : Node Rat => d.IsIsolated n.name → d.IsIsolated m.name →
        Rect.ApartBy o.paddingSize (n.boxAt o (corner n.name)) (m.boxAt o (corner m.name)) :=
      ⟨fun _ _ hpair hm hn => (hpair hn hm).symm⟩
    exact hpairs.forall hn hm hne hnisolated hmisolated
  · exact .inr (.inr (above_of_isIsolated names hpacking hcorner hall hn hm hnisolated hmisolated))
  · exact .inr (.inl (above_of_isIsolated names hpacking hcorner hall hm hn hmisolated hnisolated))
  · rw [boxAt_eq names hn, boxAt_eq names hm]
    rcases hpacking.columns_apart _ (mem_columns hpacking hcorner hall hn hnisolated) _
      (mem_columns hpacking hcorner hall hm hmisolated) with ⟨c, hc, hnc, hmc⟩ | hleft
    · have hclass := exists_class_of_mem_joined hcenters hc
      have hconnected := (sameClass_classes_iff (List.mem_map_of_mem hn)).mp ⟨_, hclass, hnc, hmc⟩
      exact absurd hconnected hapart
    · exact .inl hleft

end

/-- In exact arithmetic all corners are found. -/
theorem result_packedCorners_exact (d : Diagram Rat) (o : Options)
    (centers : Network String → List (Point Rat)) : (d.packedCorners o centers).result = .ok () :=
  congrArg (·.result) (pack_exact _ _ _)

/-- In exact arithmetic every arrangement comes to its end. -/
theorem result_arrange_exact [ComponentLayout Rat] (d : Diagram Rat) (o : Options) :
    (d.arrange o).2 = .ok () := by
  unfold arrange
  split
  · rfl
  · exact result_packedCorners_exact d o _

/-- Placing the boxes of the components apart keeps apart all entities that are not connected. -/
theorem separates_packedCorners (names : (d.nodes.map (·.name)).Nodup)
    (hcenters : ∀ component, (centers component).length = component.vertices.length)
    (hpadding : 0 ≤ o.paddingSize)
    (hsizes : ∀ n ∈ d.nodes, 0 ≤ (d.layoutSize o n.name).width ∧
      0 ≤ (d.layoutSize o n.name).height) {corner : String → Point Rat}
    (hcorner : ∀ entry ∈ (d.packedCorners o centers).corners, entry.2 = corner entry.1) :
    d.Separates o corner := by
  have hgap : (0 : Rat) ≤ o.paddingSize := by exact_mod_cast hpadding
  have hsized : ∀ c ∈ d.joined o centers, Sized (d.layoutSize o) c :=
    fun c hc => sized_of_mem_joined hcenters hsizes hc
  have hwidths : ∀ name ∈ d.singles, 0 ≤ (d.layoutSize o name).width := by
    intro name hname
    obtain ⟨n, hn, rfl⟩ := List.mem_map.mp (d.singles_subset hname)
    exact (hsizes n hn).1
  have hall := d.name_mem_packedCorners o hcenters (result_packedCorners_exact d o centers)
  obtain ⟨columns, row, hpack, hpacking⟩ := exists_packing hgap hsized hwidths
  have hentries : (d.packedCorners o centers).corners = columns ++ row := congrArg (·.corners) hpack
  rw [hentries] at hcorner hall
  refine ⟨?_, ?_, ?_, pairwise_leftOf names hpacking hcorner, ?_⟩
  · intro n hn
    exact hpacking.inside _ (mem_entries hcorner (List.Subset.refl _) (hall n hn))
  · intro n hn m hm hapart
    exact apartBy_of_not_connected names hpacking hcorner hall hcenters hn hm hapart
  · intro n hn m hm hapart p
    have h := apartBy_of_not_connected names hpacking hcorner hall hcenters hn hm hapart
    exact h.disjoint hgap
  · intro n hn m hm
    exact above_of_isIsolated names hpacking hcorner hall hn hm

/-- Whatever centers the components are given inside, every entity stands at its one corner. -/
theorem nodes_layeredBy (names : (d.nodes.map (·.name)).Nodup)
    (hcenters : ∀ component, (centers component).length = component.vertices.length) :
    ∃ corner : String → Point Rat,
      (d.layeredBy o centers).1.nodes =
          d.nodes.map (fun n => { n with position := some (corner n.name) }) ∧
        ∀ entry ∈ (d.packedCorners o centers).corners, entry.2 = corner entry.1 := by
  have hresult := result_packedCorners_exact d o centers
  have hkeys : ((d.packedCorners o centers).corners.map (·.1)).Nodup :=
    (d.map_fst_packedCorners_perm o hcenters hresult).nodup_iff.mpr d.nodup_vertexNames
  exact exists_corner names hkeys (d.name_mem_packedCorners o hcenters hresult)

/-- Whatever centers the components are given inside, every entity is placed, those that nothing
joins to another stand in the row below, and what no connections hold together is kept apart. -/
theorem exists_corner_layeredBy (names : (d.nodes.map (·.name)).Nodup)
    (hcenters : ∀ component, (centers component).length = component.vertices.length)
    (hpadding : 0 ≤ o.paddingSize)
    (hsizes : ∀ n ∈ d.nodes, 0 ≤ (n.layoutSize o).width ∧ 0 ≤ (n.layoutSize o).height) :
    ∃ corner : String → Point Rat, (d.layeredBy o centers).2 = .ok () ∧
      (d.layeredBy o centers).1.nodes =
          d.nodes.map (fun n => { n with position := some (corner n.name) }) ∧
        (∀ n ∈ d.nodes, n.name ∈ d.singles ↔ d.IsIsolated n.name) ∧ d.Separates o corner := by
  obtain ⟨corner, hnodes, hcorner⟩ := nodes_layeredBy (o := o) names hcenters
  refine ⟨corner, result_packedCorners_exact d o centers, hnodes, ?_, ?_⟩
  · intro n hn
    exact mem_singles_iff_isIsolated (List.mem_map_of_mem hn)
  · refine separates_packedCorners names hcenters hpadding ?_ hcorner
    intro n hn
    rw [layoutSize_eq names o hn]
    exact hsizes n hn

/-- A category over its generic entity, far up and to the left, and an entity that stands alone. -/
theorem exists_corner_layeredBy_of_overlap :
    let d : Diagram Rat :=
      { nodes := [⟨⟨"C", [], []⟩, none, none⟩, ⟨⟨"A", [], []⟩, none, some ⟨100, 50⟩⟩,
          ⟨⟨"B", [], []⟩, some ⟨1, 1⟩, some ⟨60, 0⟩⟩]
        relationships := []
        generalizations := [⟨"A", ["B"], false, none⟩] }
    let o : Options := { Options.default with padding := some 7, arrangement := .layered }
    ∃ corner : String → Point Rat,
      (d.layeredBy o fun c => c.vertices.map fun _ => ⟨-900, -40⟩).1.nodes =
          d.nodes.map (fun n => { n with position := some (corner n.name) }) ∧
        d.IsIsolated "C" ∧ d.Separates o corner := by
  intro d o
  obtain ⟨corner, -, hnodes, hsingles, hseparates⟩ := exists_corner_layeredBy (d := d) (o := o)
    (by decide) (fun _ => List.length_map fun _ => (⟨-900, -40⟩ : Point Rat)) (by decide)
    (by decide +kernel)
  have hsingle : "C" ∈ d.singles := by decide +kernel
  exact ⟨corner, hnodes, (hsingles _ List.mem_cons_self).mp hsingle, hseparates⟩

end Diagram

end EntityDiagram
