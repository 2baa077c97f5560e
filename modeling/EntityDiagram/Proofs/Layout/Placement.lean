import EntityDiagram.Measure
import EntityDiagram.Proofs.Layout.Packing
import EntityDiagram.Proofs.Pairing

/-! What placing entities changes: nothing but positions. In a diagram with distinct names every
entity has a position afterwards, on the grid and in layers. -/
namespace EntityDiagram

/-- Among distinct keys, changing the first member with a key changes whatever has that key. -/
theorem modifyFirst_eq_map {β γ : Type} [DecidableEq γ] {key : β → γ} {l : List β}
    (h : (l.map key).Nodup) (k : γ) (f : β → β) :
    modifyFirst (key · = k) f l = l.map fun b => if key b = k then f b else b := by
  induction l with
  | nil => rfl
  | cons b rest ih =>
    rw [List.map_cons, List.nodup_cons] at h
    by_cases hb : key b = k
    · have hrest : rest.map (fun b => if key b = k then f b else b) = rest := by
        rw [List.map_congr_left (g := id), List.map_id]
        intro c hc
        have hne : key c ≠ k := by
          rintro rfl
          exact h.1 (hb ▸ List.mem_map_of_mem hc)
        exact if_neg hne
      rw [modifyFirst, if_pos (by simpa using hb), List.map_cons, if_pos hb, hrest]
    · rw [modifyFirst, if_neg (by simpa using hb), List.map_cons, if_neg hb, ih h.2]

namespace Diagram

variable {α : Type} {d : Diagram α}

@[simp] theorem map_name_entities (d : Diagram α) :
    d.schema.entities.map (·.name) = d.nodes.map (·.name) := by
  simp [schema, Function.comp_def]

theorem nodes_setPosition (h : (d.nodes.map (·.name)).Nodup) (name : String)
    (position : Option (Point α)) : (d.setPosition name position).nodes =
      d.nodes.map fun n => if n.name = name then { n with position } else n :=
  modifyFirst_eq_map h name _

@[simp] theorem schema_moveTo [Scalar α] (d : Diagram α) (corners : List (String × Point α)) :
    (d.moveTo corners).schema = d.schema := by
  induction corners generalizing d with
  | nil => rfl
  | cons corner rest ih => exact (ih _).trans (d.schema_setPosition _ _)

/-- Of several corners for one entity the last counts; an entity without one stays where it is. -/
theorem nodes_moveTo [Scalar α] (h : (d.nodes.map (·.name)).Nodup)
    (corners : List (String × Point α)) : (d.moveTo corners).nodes = d.nodes.map fun n =>
      { n with position := (corners.reverse.lookup n.name).or n.position } := by
  induction corners generalizing d with
  | nil => simp [moveTo]
  | cons corner rest ih =>
    obtain ⟨name, place⟩ := corner
    have hstep := nodes_setPosition h name (some place)
    have hnames : (d.setPosition name (some place)).nodes.map (·.name) = d.nodes.map (·.name) := by
      rw [← map_name_entities, schema_setPosition, map_name_entities]
    have hrest := ih (d := d.setPosition name (some place)) (by rwa [hnames])
    change ((d.setPosition name (some place)).moveTo rest).nodes = _
    rw [hrest, hstep, List.map_map]
    apply List.map_congr_left
    intro n _
    rw [List.reverse_cons, List.lookup_append, Option.or_assoc, Function.comp_apply]
    by_cases hn : n.name = name
    · simp [hn]
    · have hother : (n.name == name) = false := by simpa using hn
      simp [hn, hother, List.lookup_cons]

lemma exists_lookup_reverse_eq {β : Type} {name : String} {pairs : List (String × β)}
    (h : name ∈ pairs.map (·.1)) : ∃ b, pairs.reverse.lookup name = some b ∧ (name, b) ∈ pairs := by
  obtain ⟨pair, hpair, hname⟩ := List.mem_map.mp h
  have hsome : (pairs.reverse.lookup name).isSome := by
    rw [List.lookup_isSome_iff]
    exact ⟨pair, List.mem_reverse.mpr hpair, by simp [hname]⟩
  obtain ⟨b, hb⟩ := Option.isSome_iff_exists.mp hsome
  obtain ⟨before, after, hsplit, -⟩ := List.lookup_eq_some_iff.mp hb
  exact ⟨b, hb, List.mem_reverse.mp (hsplit ▸ by simp)⟩

/-- Where every name has exactly one corner, every entity stands at the corner of its name. -/
theorem exists_corner [Scalar α] (h : (d.nodes.map (·.name)).Nodup)
    {corners : List (String × Point α)} (hkeys : (corners.map (·.1)).Nodup)
    (hcorners : ∀ n ∈ d.nodes, n.name ∈ corners.map (·.1)) : ∃ corner : String → Point α,
      (d.moveTo corners).nodes =
          d.nodes.map (fun n => { n with position := some (corner n.name) }) ∧
        ∀ entry ∈ corners, entry.2 = corner entry.1 := by
  refine ⟨fun name => (corners.reverse.lookup name).getD ⟨0, 0⟩, ?_, ?_⟩
  · rw [nodes_moveTo h]
    apply List.map_congr_left
    intro n hn
    obtain ⟨place, hplace, -⟩ := exists_lookup_reverse_eq (hcorners n hn)
    simp [hplace]
  · intro entry hentry
    obtain ⟨place, hplace, hmem⟩ := exists_lookup_reverse_eq (List.mem_map_of_mem hentry)
    have hsame := List.inj_on_of_nodup_map hkeys hentry hmem rfl
    simp only [hplace, Option.getD_some]
    rw [hsame]

/-- One diagram is another with every entity placed. -/
structure Places (d e : Diagram α) : Prop where
  relationships : e.relationships = d.relationships
  generalizations : e.generalizations = d.generalizations
  nodes : List.Forall₂ (fun n m : Node α => ∃ corner, m = { n with position := some corner })
    d.nodes e.nodes

theorem Places.schema_eq {e : Diagram α} (h : d.Places e) : e.schema = d.schema := by
  have hnodes : d.nodes.map (·.toEntity) = e.nodes.map (·.toEntity) := by
    apply Pairing.map_eq_map h.nodes
    rintro n m ⟨corner, rfl⟩
    rfl
  rw [schema, schema, hnodes, h.relationships, h.generalizations]

theorem Places.exists_of_mem {e : Diagram α} (h : d.Places e) {m : Node α} (hm : m ∈ e.nodes) :
    ∃ n ∈ d.nodes, ∃ corner, m = { n with position := some corner } :=
  Pairing.exists_left_partner h.nodes hm

variable [Scalar α]

theorem places_grid (d : Diagram α) (o : Options) : d.Places (d.grid o) := by
  refine ⟨rfl, rfl, ?_⟩
  rw [grid, List.forall₂_iff_get]
  refine ⟨by simp, ?_⟩
  intro i hd he
  exact ⟨Grid.position o (gridColumns d.nodes.length) i, by simp⟩

theorem exists_of_getElem?_grid {o : Options} {index : Nat} {m : Node α}
    (h : (d.grid o).nodes[index]? = some m) : ∃ n, d.nodes[index]? = some n ∧
      m = { n with position := some (Grid.position o (gridColumns d.nodes.length) index) } := by
  rw [grid, List.getElem?_mapIdx, Option.map_eq_some_iff] at h
  obtain ⟨n, hn, rfl⟩ := h
  exact ⟨n, hn, rfl⟩

/-- Whatever corners a component is given, a layout by corners for all names places every entity. -/
theorem places_moveTo (h : (d.nodes.map (·.name)).Nodup) {corners : List (String × Point α)}
    (hcorners : ∀ n ∈ d.nodes, n.name ∈ corners.map (·.1)) : d.Places (d.moveTo corners) := by
  have hschema := d.schema_moveTo corners
  refine ⟨congrArg Schema.relationships hschema, congrArg Schema.generalizations hschema, ?_⟩
  rw [nodes_moveTo h, List.forall₂_map_right_iff, List.forall₂_same]
  intro n hn
  obtain ⟨place, hplace, -⟩ := exists_lookup_reverse_eq (hcorners n hn)
  exact ⟨place, by rw [hplace, Option.some_or]⟩

/-- Whatever centers a component is given, as many as it has vertices, an arrangement in layers that
comes to its end places every entity. -/
theorem places_layeredBy (h : (d.nodes.map (·.name)).Nodup) (o : Options)
    {centers : Network String → List (Point α)}
    (hcenters : ∀ component, (centers component).length = component.vertices.length)
    (hresult : (d.layeredBy o centers).2 = .ok ()) : d.Places (d.layeredBy o centers).1 :=
  places_moveTo h (d.name_mem_packedCorners o hcenters hresult)

/-- Every arrangement that comes to its end places every entity. -/
theorem places_arrange [Layered.ComponentLayout α] (h : (d.nodes.map (·.name)).Nodup)
    {o : Options} (hresult : (d.arrange o).2 = .ok ()) : d.Places (d.arrange o).1 := by
  unfold arrange at hresult ⊢
  split
  · exact d.places_grid o
  · rename_i hlayered
    rw [hlayered] at hresult
    exact places_layeredBy h o (Layered.ComponentLayout.length_centersOf _ _) hresult

@[simp] theorem schema_measure (d : Diagram α) : d.measure.schema = d.schema := by
  simp [measure, schema, Function.comp_def]

end Diagram

end EntityDiagram
