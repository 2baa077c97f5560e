import EntityDiagram.Proofs.Layout.Placement

/-! What an arrangement reads of a diagram: names, sizes and connections, but no position. With
distinct names it gives every entity a new one, so nothing is left of where entities stood. -/
namespace EntityDiagram.Diagram

variable {α : Type}

/-- The diagram with no entity placed. -/
def unplaced (d : Diagram α) : Diagram α :=
  { d with nodes := d.nodes.map ({ · with position := none }) }

variable (d : Diagram α)

@[simp] theorem schema_unplaced : d.unplaced.schema = d.schema := by
  simp [schema, unplaced, Function.comp_def]

@[simp] theorem map_name_unplaced : d.unplaced.nodes.map (·.name) = d.nodes.map (·.name) := by
  rw [← map_name_entities, schema_unplaced, map_name_entities]

@[simp] theorem network_unplaced : d.unplaced.network = d.network := by
  simp [network, vertexNames]

theorem lastIndex_unplaced : d.unplaced.lastIndex = d.lastIndex := by
  funext name
  simp [lastIndex, unplaced, ← List.map_reverse, List.findIdx_map, Function.comp_def]

theorem singles_unplaced : d.unplaced.singles = d.singles := by
  simp [singles, lastIndex_unplaced]

/-- Moving an entity is nothing that shows without the positions. -/
@[simp] theorem unplaced_setPosition (name : String) (position : Option (Point α)) :
    (d.setPosition name position).unplaced = d.unplaced := by
  have hnodes := map_modifyFirst (fun n : Node α => decide (n.name = name)) ({ · with position })
    (fun n => { n with position := none }) (fun _ => rfl) d.nodes
  exact congrArg (Diagram.mk · d.relationships d.generalizations) hnodes

theorem unplaced_moveTo (corners : List (String × Point α)) :
    (d.moveTo corners).unplaced = d.unplaced := by
  rw [moveTo]
  induction corners generalizing d with
  | nil => rfl
  | cons corner rest ih => rw [List.foldl_cons, ih, unplaced_setPosition]

theorem node?_unplaced (name : String) :
    d.unplaced.node? name = (d.node? name).map ({ · with position := none }) := by
  simp only [node?, unplaced, List.find?_map]
  rfl

variable [Scalar α] (o : Options)

theorem layoutSize_unplaced : d.unplaced.layoutSize o = d.layoutSize o := by
  funext name
  simp only [layoutSize, unplaced, ← List.map_reverse, List.find?_map, Option.bind_map]
  rfl

theorem packedCorners_unplaced (centers : Network String → List (Point α)) :
    d.unplaced.packedCorners o centers = d.packedCorners o centers := by
  unfold packedCorners placedComponent
  rw [network_unplaced, singles_unplaced, layoutSize_unplaced]

theorem grid_unplaced : d.unplaced.grid o = d.grid o := by
  have hnodes : (d.unplaced.grid o).nodes = (d.grid o).nodes := by
    apply List.ext_getElem <;> simp [grid, unplaced]
  exact congrArg (Diagram.mk · d.relationships d.generalizations) hnodes

variable [Layered.ComponentLayout α]

/-- Placing entities is nothing that shows without the positions. -/
theorem unplaced_arrange : (d.arrange o).1.unplaced = d.unplaced := by
  unfold arrange
  split
  · have hnodes : (d.grid o).unplaced.nodes = d.unplaced.nodes := by
      apply List.ext_getElem <;> simp [grid, unplaced]
    exact congrArg (Diagram.mk · d.relationships d.generalizations) hnodes
  · exact d.unplaced_moveTo _

/-- Whether an arrangement comes to its end does not depend on where the entities stood. -/
theorem result_arrange_unplaced : (d.unplaced.arrange o).2 = (d.arrange o).2 := by
  unfold arrange
  split
  · rfl
  · simp only [layered, layeredBy, layoutSize_unplaced, packedCorners_unplaced]

/-- No entity has a place but those that an arrangement gives one. -/
def PlacedByArranging (d : Diagram α) (o : Options) : Prop :=
  ∀ n ∈ d.nodes, n.position.isSome →
    ∃ m ∈ (d.unplaced.arrange o).1.nodes, m.name = n.name ∧ m.position.isSome

variable {d o}

omit [Layered.ComponentLayout α] [Scalar α] in
theorem eq_of_schema_eq {e : Diagram α} (hschema : d.schema = e.schema)
    (hnodes : d.nodes = e.nodes) : d = e := by
  obtain ⟨nodes, relationships, generalizations⟩ := d
  obtain ⟨-, hrelationships, hgeneralizations⟩ := Schema.mk.inj hschema
  dsimp only at hnodes hrelationships hgeneralizations
  rw [hnodes, hrelationships, hgeneralizations]

omit [Layered.ComponentLayout α] in
/-- Corners that leave no entity where it is leave nothing of the positions before. -/
theorem moveTo_unplaced (h : (d.nodes.map (·.name)).Nodup) {corners : List (String × Point α)}
    (hcorners : ∀ n ∈ d.nodes, n.position.isSome → (corners.reverse.lookup n.name).isSome) :
    d.unplaced.moveTo corners = d.moveTo corners := by
  have hschema : (d.unplaced.moveTo corners).schema = (d.moveTo corners).schema := by simp
  have hnodes : (d.unplaced.moveTo corners).nodes = (d.moveTo corners).nodes := by
    rw [nodes_moveTo h, nodes_moveTo (by rwa [map_name_unplaced]), unplaced, List.map_map]
    apply List.map_congr_left
    intro n hn
    rw [Function.comp_apply]
    cases hposition : n.position with
    | none => rfl
    | some corner =>
      obtain ⟨place, hplace⟩ := Option.isSome_iff_exists.mp (hcorners n hn (hposition ▸ rfl))
      simp [hplace]
  exact eq_of_schema_eq hschema hnodes

theorem layered_unplaced (h : (d.nodes.map (·.name)).Nodup) (hlayered : o.arrangement = .layered)
    (hplaced : d.PlacedByArranging o) : d.unplaced.layered o = d.layered o := by
  have hdistinct : (d.unplaced.nodes.map (·.name)).Nodup := by rwa [map_name_unplaced]
  simp only [PlacedByArranging, arrange, hlayered, layered, layeredBy, layoutSize_unplaced,
    packedCorners_unplaced, nodes_moveTo hdistinct] at hplaced ⊢
  rw [moveTo_unplaced h]
  intro n hn hposition
  obtain ⟨m, hm, hname, hsome⟩ := hplaced n hn hposition
  simp only [unplaced, List.map_map, List.mem_map, Function.comp_apply] at hm
  obtain ⟨k, -, rfl⟩ := hm
  rw [← hname]
  simpa using hsome

/-- An arrangement forgets where the entities stood. -/
theorem arrange_unplaced (h : (d.nodes.map (·.name)).Nodup) (hplaced : d.PlacedByArranging o) :
    d.unplaced.arrange o = d.arrange o := by
  unfold arrange
  split
  · rw [grid_unplaced]
  · rename_i hlayered
    exact layered_unplaced h hlayered hplaced

/-- Arranging again gives a place to whoever has one. -/
theorem placedByArranging_arrange (h : (d.nodes.map (·.name)).Nodup)
    (hplaced : d.PlacedByArranging o) : (d.arrange o).1.PlacedByArranging o := by
  intro n hn hposition
  rw [unplaced_arrange, arrange_unplaced h hplaced]
  exact ⟨n, hn, rfl, hposition⟩

/-- Moving what has a place gives no place to anything else. -/
theorem PlacedByArranging.setPosition (hplaced : d.PlacedByArranging o) {name : String}
    (hname : ∃ n ∈ d.nodes, n.name = name ∧ n.position.isSome) (position : Option (Point α)) :
    (d.setPosition name position).PlacedByArranging o := by
  intro m hm hposition
  rw [unplaced_setPosition]
  rcases mem_modifyFirst hm with hm | ⟨n, -, hn, rfl⟩
  · exact hplaced m hm hposition
  · obtain ⟨first, hfirst, rfl, hsome⟩ := hname
    obtain ⟨k, hk, hkname, hksome⟩ := hplaced first hfirst hsome
    exact ⟨k, hk, by simpa [hkname, eq_comm] using hn, hksome⟩

end EntityDiagram.Diagram
