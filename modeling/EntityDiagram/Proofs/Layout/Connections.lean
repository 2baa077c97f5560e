import EntityDiagram.Proofs.Layout.Packing
import EntityDiagram.Proofs.Network.Connectivity
import Mathlib.Data.List.Flatten

/-! What joins entities, and the network that a layout makes of it: every two entities that are
joined are neighbors there, in one direction. Components of several entities are what connections
hold together; all others stand alone, in order of declaration. -/
namespace EntityDiagram

section

variable {ν : Type} [DecidableEq ν] {vertices : List ν}

/-- A simple edge is one of the given ones and joins two different vertices. -/
theorem of_mem_simpleEdges {kept edges : List (ν × ν)} {u v : ν}
    (h : (u, v) ∈ simpleEdges vertices kept edges) :
    (u, v) ∈ edges ∧ u ≠ v ∧ u ∈ vertices ∧ v ∈ vertices := by
  induction edges generalizing kept with
  | nil => contradiction
  | cons edge rest ih =>
    obtain ⟨a, b⟩ := edge
    rw [simpleEdges] at h
    split_ifs at h with hskip
    · exact (ih h).imp_left (List.mem_cons_of_mem _)
    · rcases List.mem_cons.mp h with hedge | h
      · obtain ⟨rfl, rfl⟩ := Prod.mk.inj hedge
        simp only [not_or, not_not] at hskip
        exact ⟨List.mem_cons_self, hskip.1, hskip.2.2.2⟩
      · exact (ih h).imp_left (List.mem_cons_of_mem _)

/-- Two different vertices that are joined are joined by a simple edge, unless one was kept before.
-/
theorem mem_simpleEdges_or {kept edges : List (ν × ν)} {u v : ν} (h : (u, v) ∈ edges)
    (hne : u ≠ v) (hu : u ∈ vertices) (hv : v ∈ vertices) :
    ((u, v) ∈ simpleEdges vertices kept edges ∨ (v, u) ∈ simpleEdges vertices kept edges) ∨
      (u, v) ∈ kept ∨ (v, u) ∈ kept := by
  induction edges generalizing kept with
  | nil => contradiction
  | cons edge rest ih =>
    obtain ⟨a, b⟩ := edge
    rw [simpleEdges]
    rcases List.mem_cons.mp h with hedge | h
    · obtain ⟨rfl, rfl⟩ := Prod.mk.inj hedge
      split_ifs with hskip
      · right
        simpa [hne, hu, hv] using hskip
      · exact .inl (.inl List.mem_cons_self)
    · split_ifs with hskip
      · exact ih h
      · rcases @ih ((a, b) :: kept) h with hmem | hkept
        · exact .inl (hmem.imp (List.mem_cons_of_mem _) (List.mem_cons_of_mem _))
        · simp only [List.mem_cons] at hkept ⊢
          tauto

end

namespace Diagram

variable {α : Type} (d : Diagram α)

/-- A relationship or a generalization joins two different entities of the diagram: what is referred
to stands above what refers to it, and the generic entity above its categories. -/
structure Joins (upper lower : String) : Prop where
  connection :
    (∃ r ∈ d.relationships, r.target.entity = upper ∧ r.source.entity = lower) ∨
      ∃ g ∈ d.generalizations, g.generic = upper ∧ lower ∈ g.categories
  ne : upper ≠ lower
  upper_mem : upper ∈ d.nodes.map (·.name)
  lower_mem : lower ∈ d.nodes.map (·.name)

theorem mem_connections_iff {upper lower : String} : (upper, lower) ∈ connections d.schema ↔
    (∃ r ∈ d.relationships, r.target.entity = upper ∧ r.source.entity = lower) ∨
      ∃ g ∈ d.generalizations, g.generic = upper ∧ lower ∈ g.categories := by
  simp [connections, schema, and_comm]

/-- Connections lead from one entity to the other. -/
def Connected : String → String → Prop := Relation.EqvGen d.Joins

/-- Nothing joins the entity to a different one. -/
def IsIsolated (name : String) : Prop := ∀ other, ¬ d.Joins name other ∧ ¬ d.Joins other name

variable {d}

theorem joins_of_mem_edges {u v : String} (h : (u, v) ∈ d.network.edges) : d.Joins u v := by
  obtain ⟨hmem, hne, hu, hv⟩ := of_mem_simpleEdges h
  exact ⟨d.mem_connections_iff.mp hmem, hne, d.mem_vertexNames_iff.mp hu,
    d.mem_vertexNames_iff.mp hv⟩

theorem Joins.mem_edges_or {u v : String} (h : d.Joins u v) :
    (u, v) ∈ d.network.edges ∨ (v, u) ∈ d.network.edges := by
  have hsimple := @mem_simpleEdges_or _ _ _ [] _ _ _ (d.mem_connections_iff.mpr h.connection)
    h.ne (d.mem_vertexNames_iff.mpr h.upper_mem) (d.mem_vertexNames_iff.mpr h.lower_mem)
  exact hsimple.resolve_right (by simp)

theorem connected_network_iff {u v : String} : d.network.Connected u v ↔ d.Connected u v := by
  unfold Network.Connected
  constructor
  · exact Relation.EqvGen.mono (fun u v huv => joins_of_mem_edges huv) u v
  · refine Relation.EqvGen.eqvGen_le (fun u v huv => ?_) u v
    rcases huv.mem_edges_or with hedge | hedge
    · exact .rel u v hedge
    · exact .symm v u (.rel v u hedge)

/-- Two entities are in one component exactly when connections hold them together. -/
theorem sameClass_classes_iff {u v : String} (hu : u ∈ d.nodes.map (·.name)) :
    SameClass d.network.classes u v ↔ d.Connected u v := by
  rw [← connected_network_iff]
  refine Network.sameClass_classes_iff d.nodup_vertexNames ?_ (d.mem_vertexNames_iff.mpr hu)
  rintro ⟨a, b⟩ hedge
  exact (of_mem_simpleEdges hedge).2.2

theorem IsIsolated.eq_of_connected {u v : String} (h : d.IsIsolated u) (huv : d.Connected u v) :
    u = v := by
  have hway : ∀ a b, d.Connected a b → (a = u ↔ b = u) := by
    intro a b hab
    induction hab with
    | rel a b hab =>
      constructor
      · rintro rfl
        exact ((h b).1 hab).elim
      · rintro rfl
        exact ((h a).2 hab).elim
    | refl a => rfl
    | symm a b _ ih => exact ih.symm
    | trans a b c _ _ ihab ihbc => exact ihab.trans ihbc
  exact ((hway u v huv).mp rfl).symm

theorem mem_singles_iff {name : String} :
    name ∈ d.singles ↔ ∃ c ∈ d.network.classes, c.length = 1 ∧ name ∈ c := by
  simp [d.singles_perm.mem_iff, Network.components, Network.restrict, and_assoc]

/-- The entities that stand alone are those that nothing joins to another. -/
theorem mem_singles_iff_isIsolated {name : String} (hname : name ∈ d.nodes.map (·.name)) :
    name ∈ d.singles ↔ d.IsIsolated name := by
  have hnodup : d.network.classes.flatten.Nodup :=
    (Network.flatten_classes_perm d.nodup_vertexNames).nodup_iff.mpr d.nodup_vertexNames
  rw [mem_singles_iff]
  constructor
  · rintro ⟨c, hc, hlength, hmem⟩ other
    have halone : ∀ {v}, d.Connected name v → v = name := by
      intro v hv
      obtain ⟨b, hb, hnb, hvb⟩ := (sameClass_classes_iff hname).mpr hv
      obtain rfl := class_unique hnodup hb hc hnb hmem
      obtain ⟨w, rfl⟩ := List.length_eq_one_iff.mp hlength
      rw [List.mem_singleton.mp hvb, List.mem_singleton.mp hmem]
    constructor
    · intro hjoins
      exact hjoins.ne (halone (.rel _ _ hjoins)).symm
    · intro hjoins
      exact hjoins.ne (halone (.symm _ _ (.rel _ _ hjoins)))
  · intro hisolated
    obtain ⟨c, hc, hmem, -⟩ := (sameClass_classes_iff hname).mpr (.refl name)
    refine ⟨c, hc, ?_, hmem⟩
    have hall : ∀ v ∈ c, v = name := fun v hv =>
      (hisolated.eq_of_connected ((sameClass_classes_iff hname).mp ⟨c, hc, hmem, hv⟩)).symm
    have hreplicate := List.eq_replicate_iff.mpr ⟨rfl, hall⟩
    have hc' : c.Nodup := (List.nodup_flatten.mp hnodup).1 c hc
    rw [hreplicate, List.nodup_replicate] at hc'
    have := List.length_pos_of_mem hmem
    omega

/-- With distinct names an entity is the last of its name where it is declared. -/
theorem lastIndex_getElem (h : (d.nodes.map (·.name)).Nodup) {i : Nat}
    (hi : i < d.nodes.length) : d.lastIndex d.nodes[i].name = i := by
  have hreverse : d.nodes.reverse.findIdx (·.name = d.nodes[i].name) =
      d.nodes.length - 1 - i := by
    rw [List.findIdx_eq (by rw [List.length_reverse]; omega)]
    constructor
    · have : d.nodes.length - 1 - (d.nodes.length - 1 - i) = i := by omega
      simp [List.getElem_reverse, this]
    · intro j hj
      rw [List.getElem_reverse, decide_eq_false_iff_not]
      intro hname
      have hother : d.nodes.length - 1 - j < (d.nodes.map (·.name)).length := by
        rw [List.length_map]
        omega
      have hself : i < (d.nodes.map (·.name)).length := by rwa [List.length_map]
      have hsame : (d.nodes.map (·.name))[d.nodes.length - 1 - j] = (d.nodes.map (·.name))[i] := by
        rwa [List.getElem_map, List.getElem_map]
      have hindex := h.getElem_inj_iff.mp hsame
      omega
  rw [lastIndex, hreverse]
  omega

theorem nodup_singles (d : Diagram α) : d.singles.Nodup := by
  have hvertices : (d.network.components.flatMap (·.vertices)).Nodup :=
    (Network.flatMap_components_perm d.nodup_vertexNames).nodup_iff.mpr d.nodup_vertexNames
  exact d.singles_perm.nodup_iff.mpr (hvertices.sublist (List.filter_sublist.flatMap _))

theorem singles_subset (d : Diagram α) : d.singles ⊆ d.nodes.map (·.name) := by
  intro name hname
  obtain ⟨c, hc, -, hmem⟩ := mem_singles_iff.mp hname
  rw [← mem_vertexNames_iff]
  exact (Network.flatten_classes_perm d.nodup_vertexNames).subset (List.mem_flatten_of_mem hc hmem)

theorem pairwise_lastIndex_singles (d : Diagram α) :
    d.singles.Pairwise fun a b => d.lastIndex a ≤ d.lastIndex b := by
  have hsorted := @List.pairwise_mergeSort _ (fun a b => d.lastIndex a ≤ d.lastIndex b)
    (by simp only [decide_eq_true_eq]; omega)
    (by simp only [Bool.or_eq_true, decide_eq_true_eq]; omega)
    ((d.network.components.filter (·.vertices.length = 1)).flatMap (·.vertices))
  exact hsorted.imp of_decide_eq_true

/-- What stands alone keeps the order of declaration. -/
theorem singles_eq_filter (h : (d.nodes.map (·.name)).Nodup) :
    d.singles = (d.nodes.map (·.name)).filter (· ∈ d.singles) := by
  refine List.Perm.eq_of_pairwise ?_ d.pairwise_lastIndex_singles ?_ ?_
  · intro a b ha hb hab hba
    obtain ⟨i, hi, rfl⟩ := List.getElem_of_mem (d.singles_subset ha)
    obtain ⟨j, hj, rfl⟩ := List.getElem_of_mem (List.mem_filter.mp hb).1
    rw [List.length_map] at hi hj
    rw [List.getElem_map, List.getElem_map, lastIndex_getElem h hi, lastIndex_getElem h hj] at *
    obtain rfl : i = j := by omega
    rfl
  · apply List.Pairwise.filter
    rw [List.pairwise_map, List.pairwise_iff_getElem]
    intro i j hi hj hij
    rw [lastIndex_getElem h hi, lastIndex_getElem h hj]
    omega
  · rw [List.perm_ext_iff_of_nodup d.nodup_singles (h.filter _)]
    intro name
    simpa using fun hname => List.mem_map.mp (d.singles_subset hname)

end Diagram

end EntityDiagram
