import EntityDiagram.Geometry.Failure
import EntityDiagram.Proofs.Layered.Layers
import EntityDiagram.Proofs.Layout.Separation

/-! Where a layered arrangement puts what is joined, in exact numbers: into different layers, a gap
apart. Without a cycle everything above has its connections only to what stands below it. -/
namespace EntityDiagram.Diagram

open Layered

section

variable {α : Type} {d : Diagram α}

theorem isSimple_network (d : Diagram α) : d.network.IsSimple := by
  constructor
  · intro u w huw
    exact (of_mem_simpleEdges huw).2.2
  · intro u w huw
    exact (of_mem_simpleEdges huw).2.1

theorem mem_edges_restrict_iff {vertices : List String} {u w : String} :
    (u, w) ∈ (d.network.restrict vertices).edges ↔
      (u, w) ∈ d.network.edges ∧ u ∈ vertices ∧ w ∈ vertices := by
  simp [Network.restrict]

theorem isSimple_restrict (d : Diagram α) (vertices : List String) :
    (d.network.restrict vertices).IsSimple := by
  constructor
  · intro u w huw
    exact (mem_edges_restrict_iff.mp huw).2
  · intro u w huw
    exact d.isSimple_network.loopless u w (mem_edges_restrict_iff.mp huw).1

/-- Two entities that are joined are in one component, and an edge of it leads from one to the
other. -/
theorem Joins.exists_component {upper lower : String} (h : d.Joins upper lower) :
    ∃ vertices ∈ d.network.classes, vertices.length ≠ 1 ∧
      ((upper, lower) ∈ (d.network.restrict vertices).edges ∨
        (lower, upper) ∈ (d.network.restrict vertices).edges) := by
  obtain ⟨vertices, hvertices, hupper, hlower⟩ :=
    (sameClass_classes_iff h.upper_mem).mpr (.rel _ _ h)
  refine ⟨vertices, hvertices, ?_, ?_⟩
  · intro hlength
    obtain ⟨v, rfl⟩ := List.length_eq_one_iff.mp hlength
    exact h.ne ((List.mem_singleton.mp hupper).trans (List.mem_singleton.mp hlower).symm)
  · exact h.mem_edges_or.imp (fun hedge => mem_edges_restrict_iff.mpr ⟨hedge, hupper, hlower⟩)
      fun hedge => mem_edges_restrict_iff.mpr ⟨hedge, hlower, hupper⟩

/-- Without a cycle the edge leads downward, and it is not turned round. -/
theorem Joins.mem_edges_oriented {upper lower : String} (h : d.Joins upper lower)
    (hacyclic : IsAcyclic d.Joins) {vertices : List String}
    (hedge : (upper, lower) ∈ (d.network.restrict vertices).edges ∨
      (lower, upper) ∈ (d.network.restrict vertices).edges) :
    (upper, lower) ∈ (d.network.restrict vertices).oriented.edges := by
  have hedges : (d.network.restrict vertices).oriented.edges =
      (d.network.restrict vertices).edges := by
    apply Network.edges_oriented_of_isAcyclic (d.isSimple_restrict vertices)
    exact hacyclic.mono fun u w huw => joins_of_mem_edges (mem_edges_restrict_iff.mp huw).1
  rw [hedges]
  refine hedge.resolve_right fun hback => ?_
  have hjoins := joins_of_mem_edges (mem_edges_restrict_iff.mp hback).1
  exact hacyclic upper (.tail (.single h) hjoins)

end

variable {d : Diagram Rat} {o : Options} {corner : String → Point Rat}

/-- The boxes of a component whose centers are given vertex by vertex. -/
theorem mem_placedComponent {component : Network String} {center : String → Point Rat}
    {v : String} (hv : v ∈ component.vertices) :
    ⟨v, d.layoutSize o v, center v⟩ ∈
      d.placedComponent o component (component.vertices.map center) := by
  have hzip : (v, center v) ∈ component.vertices.zip (component.vertices.map center) := by
    obtain ⟨i, hi, rfl⟩ := List.getElem_of_mem hv
    rw [List.mem_iff_getElem]
    exact ⟨i, by simpa using hi, by simp⟩
  exact List.mem_map.mpr ⟨(v, center v), hzip, rfl⟩

/-- The corners of components are among those that are found. -/
theorem corner_mem_packedCorners {centers : Network String → List (Point Rat)}
    {entry : String × Point Rat} (h : entry ∈ (packFrom (o.paddingSize : Rat) o.paddingSize
      o.paddingSize (d.joined o centers)).corners) :
    entry ∈ (d.packedCorners o centers).corners := by
  have hpack := pack_exact (o.paddingSize : Rat) (d.joined o centers)
    (d.singles.map fun name => (name, d.layoutSize o name))
  have hcorners := congrArg (·.corners) hpack
  exact hcorners ▸ List.mem_append_left _ h

/-- Inside a component the corners differ from the tops of the boxes by one shift. -/
theorem exists_shift
    (hcorner : ∀ entry ∈ (d.packedCorners o (centers o.gaps (d.layoutSize o))).corners,
      entry.2 = corner entry.1) {vertices : List String} (hvertices : vertices ∈ d.network.classes)
    (hlength : vertices.length ≠ 1) : ∃ shift : Rat, ∀ v ∈ vertices, (corner v).y =
      centerY o.gaps (d.layoutSize o) (d.network.restrict vertices) v -
        (d.layoutSize o v).height / 2 + shift := by
  let component := d.network.restrict vertices
  have hcomponent : component ∈ d.network.components.filter (·.vertices.length ≠ 1) :=
    List.mem_filter.mpr ⟨List.mem_map_of_mem hvertices, decide_eq_true hlength⟩
  have hjoined : d.placedComponent o component (centers o.gaps (d.layoutSize o) component) ∈
      d.joined o (centers o.gaps (d.layoutSize o)) := List.mem_map_of_mem hcomponent
  obtain ⟨place, hsubset⟩ :=
    exists_moveTo_subset (o.paddingSize : Rat) o.paddingSize o.paddingSize hjoined
  obtain ⟨left, top, hmoved⟩ := exists_shift_moveTo place (o.paddingSize : Rat)
    (d.placedComponent o component (centers o.gaps (d.layoutSize o) component))
  obtain ⟨x, hcenters⟩ := exists_centers_eq o.gaps (d.layoutSize o) component
  refine ⟨top, ?_⟩
  intro v hv
  have hplaced : ⟨v, d.layoutSize o v, x v, centerY o.gaps (d.layoutSize o) component v⟩ ∈
      d.placedComponent o component (centers o.gaps (d.layoutSize o) component) := by
    rw [hcenters]
    exact mem_placedComponent hv
  have hentry := hcorner _ (corner_mem_packedCorners (hsubset (hmoved _ hplaced)))
  exact (congrArg Point.y hentry).symm

/-- Along the edges of a component the upper entity ends by the gap above the lower one. -/
theorem corner_apart (hgap : 0 ≤ o.layerGap)
    (hsizes : ∀ name ∈ d.nodes.map (·.name), 0 ≤ (d.layoutSize o name).height)
    (hcorner : ∀ entry ∈ (d.packedCorners o (centers o.gaps (d.layoutSize o))).corners,
      entry.2 = corner entry.1) {vertices : List String} (hvertices : vertices ∈ d.network.classes)
    (hlength : vertices.length ≠ 1) {u w : String}
    (huw : (u, w) ∈ (d.network.restrict vertices).oriented.edges) :
    (corner u).y + (d.layoutSize o u).height + o.layerGap ≤ (corner w).y := by
  obtain ⟨shift, hshift⟩ := exists_shift hcorner hvertices hlength
  obtain ⟨hu, hw⟩ := (d.isSimple_restrict vertices).oriented.closed u w huw
  have hheights : ∀ v ∈ (d.network.restrict vertices).vertices,
      0 ≤ (d.layoutSize o v).height := by
    intro v hv
    have hmem := (Network.flatten_classes_perm d.nodup_vertexNames).subset
      (List.mem_flatten_of_mem hvertices hv)
    exact hsizes v (d.mem_vertexNames_iff.mp hmem)
  have hlayers : (o.gaps : Gaps Rat).layer = o.layerGap := rfl
  have hpositive : 0 ≤ (o.gaps : Gaps Rat).layer := by
    rw [hlayers]
    exact_mod_cast hgap
  have hcenters := centerY_apart (d.isSimple_restrict vertices) hpositive hheights huw
  rw [hshift u hu, hshift w hw, ← hlayers]
  linarith

/-- An entity with bounds that stands at its corner has a rectangle there. -/
theorem exists_rect {e : Diagram Rat} (names : (d.nodes.map (·.name)).Nodup)
    (hnodes : e.nodes = d.nodes.map fun n => { n with position := some (corner n.name) })
    (hbounds : ∀ n ∈ d.nodes, n.bounds.isSome) {name : String}
    (hname : name ∈ d.nodes.map (·.name)) : ∃ n, e.node? name = some n ∧
      n.rect = .ok (boxAt (d.layoutSize o) (name, corner name)) := by
  obtain ⟨n, hn, rfl⟩ := List.mem_map.mp hname
  obtain ⟨size, hsize⟩ := Option.isSome_iff_exists.mp (hbounds n hn)
  have hsame : e.nodes.map (·.name) = d.nodes.map (·.name) := by
    rw [hnodes, List.map_map]
    rfl
  let placed : Node Rat := { n with position := some (corner n.name) }
  have hmem : placed ∈ e.nodes := hnodes ▸ List.mem_map_of_mem hn
  refine ⟨placed, find?_key_eq_some (hsame ▸ names) hmem, ?_⟩
  rw [Layered.boxAt, layoutSize_eq names o hn, Node.layoutSize, hsize]
  simp [placed, Node.rect, hsize]

/-- A layered arrangement puts what is joined a gap apart vertically; without a cycle the upper
entity stands above. -/
theorem layered_apart (names : (d.nodes.map (·.name)).Nodup) (hgap : 0 ≤ o.layerGap)
    (hbounds : ∀ n ∈ d.nodes, ∃ size, n.bounds = some size ∧ 0 ≤ size.height)
    {upper lower : String} (hjoins : d.Joins upper lower) :
    ∃ n m r s, (d.layered o).1.node? upper = some n ∧ (d.layered o).1.node? lower = some m ∧
      n.rect = .ok r ∧ m.rect = .ok s ∧
        (Rect.Above o.layerGap r s ∨ Rect.Above o.layerGap s r) ∧
          (IsAcyclic d.Joins → Rect.Above o.layerGap r s) := by
  change ∃ n m r s, (d.layeredBy o (centers o.gaps (d.layoutSize o))).1.node? upper = some n ∧
    (d.layeredBy o (centers o.gaps (d.layoutSize o))).1.node? lower = some m ∧ _
  obtain ⟨corner, hnodes, hcorner⟩ := nodes_layeredBy (o := o) names
    (Layered.length_centers o.gaps (d.layoutSize o))
  have hsizes : ∀ name ∈ d.nodes.map (·.name), 0 ≤ (d.layoutSize o name).height := by
    intro name hname
    obtain ⟨n, hn, rfl⟩ := List.mem_map.mp hname
    obtain ⟨size, hsize, hheight⟩ := hbounds n hn
    rw [layoutSize_eq names o hn, Node.layoutSize, hsize]
    exact hheight
  have hsome : ∀ n ∈ d.nodes, n.bounds.isSome := by
    intro n hn
    obtain ⟨size, hsize, -⟩ := hbounds n hn
    rw [hsize]
    rfl
  obtain ⟨vertices, hvertices, hmany, hedge⟩ := hjoins.exists_component
  have habove : ∀ {u w}, (u, w) ∈ (d.network.restrict vertices).oriented.edges →
      Rect.Above o.layerGap (boxAt (d.layoutSize o) (u, corner u))
        (boxAt (d.layoutSize o) (w, corner w)) :=
    fun huw => corner_apart hgap hsizes hcorner hvertices hmany huw
  obtain ⟨n, hn, hr⟩ := exists_rect (o := o) names hnodes hsome hjoins.upper_mem
  obtain ⟨m, hm, hs⟩ := exists_rect (o := o) names hnodes hsome hjoins.lower_mem
  refine ⟨n, m, _, _, hn, hm, hr, hs, ?_, ?_⟩
  · rcases hedge with hedge | hedge
    · exact (Network.mem_edges_oriented_or hedge).imp habove habove
    · exact (Network.mem_edges_oriented_or hedge).symm.imp habove habove
  · intro hacyclic
    exact habove (hjoins.mem_edges_oriented hacyclic hedge)

/-- Two references in a row and one that goes past the entity between them. -/
theorem layered_apart_of_long_reference :
    let d : Diagram Rat :=
      { nodes := [⟨⟨"C", [], []⟩, none, some ⟨40, 10⟩⟩, ⟨⟨"B", [], []⟩, none, some ⟨90, 70⟩⟩,
          ⟨⟨"A", [], []⟩, none, some ⟨30, 20⟩⟩]
        relationships := [⟨⟨"C", "a"⟩, ⟨"A", "id"⟩, none⟩, ⟨⟨"C", "b"⟩, ⟨"B", "id"⟩, none⟩,
          ⟨⟨"B", "a"⟩, ⟨"A", "id"⟩, none⟩]
        generalizations := [] }
    let o : Options := { Options.default with arrangement := .layered, layerSpacing := some 5 }
    ∃ n m r s, (d.layered o).1.node? "A" = some n ∧ (d.layered o).1.node? "C" = some m ∧
      n.rect = .ok r ∧ m.rect = .ok s ∧ Rect.Above 5 r s := by
  intro d o
  have hjoins : d.Joins "A" "C" := ⟨by simp [d], by decide, by decide, by decide⟩
  have hacyclic : IsAcyclic d.Joins := by
    apply isAcyclic_of_lt fun name => ["A", "B", "C"].idxOf name
    rintro u w ⟨hconnection, -, -, -⟩
    rcases hconnection with ⟨r, hr, rfl, rfl⟩ | ⟨g, hg, -, -⟩
    · revert r
      decide
    · cases hg
  obtain ⟨n, m, r, s, hn, hm, hr, hs, -, habove⟩ := layered_apart (d := d) (o := o) (by decide)
    (by decide) (by simp [d]) hjoins
  exact ⟨n, m, r, s, hn, hm, hr, hs, habove hacyclic⟩

end EntityDiagram.Diagram
