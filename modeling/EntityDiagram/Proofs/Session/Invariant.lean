import EntityDiagram.Proofs.Layout.Unplaced
import EntityDiagram.Proofs.Session.Steps
import EntityDiagram.Proofs.Source.Resolution

/-! What a session shows, however it is used: the schema of the last source that could be read,
every entity of it measured, and a drag of an entity that is there and has a place. Every step keeps
this, whether it fails or not. -/
namespace EntityDiagram

namespace Diagram

variable {α : Type} [Scalar α]

omit [Scalar α] in
/-- Diagrams that differ in positions only have the same entities, of the same size. -/
theorem exists_of_unplaced_eq {d e : Diagram α} (h : e.unplaced = d.unplaced) {m : Node α}
    (hm : m ∈ e.nodes) : ∃ n ∈ d.nodes, n.toEntity = m.toEntity ∧ n.bounds = m.bounds := by
  have hmem : { m with position := none } ∈ d.unplaced.nodes := h ▸ List.mem_map_of_mem hm
  obtain ⟨n, hn, heq⟩ := List.mem_map.mp hmem
  obtain ⟨hentity, -, hbounds⟩ := Node.mk.inj heq
  exact ⟨n, hn, hentity, hbounds⟩

/-- Measured entities of a schema differ from each other in their positions only. -/
theorem unplaced_eq_of_measured {d : Diagram α}
    (h : ∀ n ∈ d.nodes, n.bounds = some (Measure.entity n.toEntity)) :
    d.unplaced = (ofSchema d.schema).measure := by
  have hnodes : d.unplaced.nodes = (ofSchema (α := α) d.schema).measure.nodes := by
    simp only [unplaced, measure, ofSchema, schema, List.map_map]
    apply List.map_congr_left
    intro n hn
    rw [h n hn]
    rfl
  exact eq_of_schema_eq (by simp) hnodes

end Diagram

namespace Session

variable {α : Type} [Scalar α] [Layered.ComponentLayout α]

/-- A session has opened a schema without violations: the entities are measured, those that have a
place are those that an arrangement gives one, and one of them may be dragged. -/
structure HasOpened (s : Session α) (schema : Schema) : Prop where
  schema_eq : s.diagram.schema = schema
  valid : schema.violation? = none
  measured : ∀ n ∈ s.diagram.nodes, n.bounds = some (Measure.entity n.toEntity)
  placed_by_arranging : s.diagram.PlacedByArranging s.options
  dragging : ∀ name ∈ s.dragging, ∃ n ∈ s.diagram.nodes, n.name = name ∧ n.position.isSome

variable {s t : Session α} {schema : Schema}

/-- No operation changes the options. -/
theorem options_perform (s : Session α) (operation : Operation α) :
    (s.perform operation).1.options = s.options := by
  cases operation with
  | load source =>
    change (s.load source).1.options = s.options
    rcases s.load_cases source with ⟨error, -, -, hsame⟩ | ⟨document, -, -, hopen⟩
    · rw [hsame]
    · rw [hopen, openSchema, fst_autoLayout]
  | autoLayout =>
    change s.autoLayout.1.options = s.options
    rw [fst_autoLayout]
  | beginDrag entity pointer =>
    change (s.beginDrag entity pointer).1.options = s.options
    rcases s.beginDrag_cases entity pointer with hsame | ⟨drag, -, hbegun⟩
    · rw [hsame]
    · rw [hbegun]
  | dragTo pointer area =>
    change (s.dragTo pointer area).1.options = s.options
    rcases s.dragTo_cases pointer area with hsame | ⟨entity, corner, -, hdragged⟩
    · rw [hsame]
    · rw [hdragged]
  | _ => rfl

theorem options_run (s : Session α) (operations : List (Operation α)) :
    (s.run operations).options = s.options := by
  induction operations generalizing s with
  | nil => rfl
  | cons operation rest ih => exact (ih _).trans (s.options_perform operation)

namespace HasOpened

theorem nodup_names (h : s.HasOpened schema) : (s.diagram.nodes.map (·.name)).Nodup := by
  obtain ⟨names, -⟩ := schema.violation?_eq_none_iff.mp h.valid
  simpa [← h.schema_eq] using names.entities

/-- Moving entities opens nothing else. -/
theorem of_unplaced_eq (h : s.HasOpened schema)
    (hdiagram : t.diagram.unplaced = s.diagram.unplaced)
    (hplaced : t.diagram.PlacedByArranging t.options)
    (hdragging : ∀ name ∈ t.dragging, ∃ n ∈ t.diagram.nodes, n.name = name ∧ n.position.isSome) :
    t.HasOpened schema := by
  refine ⟨?_, h.valid, ?_, hplaced, hdragging⟩
  · rw [← h.schema_eq, ← Diagram.schema_unplaced, hdiagram, Diagram.schema_unplaced]
  · intro m hm
    obtain ⟨n, hn, hentity, hbounds⟩ := Diagram.exists_of_unplaced_eq hdiagram hm
    rw [← hbounds, ← hentity]
    exact h.measured n hn

/-- What a session has opened depends on its diagram, its options and its drag alone. -/
theorem congr (h : s.HasOpened schema) (diagram : t.diagram = s.diagram)
    (options : t.options = s.options) (drag : t.drag = s.drag) : t.HasOpened schema := by
  refine h.of_unplaced_eq (by rw [diagram]) ?_ ?_
  · rw [diagram, options]
    exact h.placed_by_arranging
  · rw [diagram, Session.dragging, drag]
    exact h.dragging

/-- An arrangement moves entities, and whoever had a place has one. -/
theorem autoLayout (h : s.HasOpened schema) : s.autoLayout.1.HasOpened schema := by
  rw [fst_autoLayout]
  refine h.of_unplaced_eq (s.diagram.unplaced_arrange s.options)
    (Diagram.placedByArranging_arrange h.nodup_names h.placed_by_arranging) ?_
  intro name hname
  obtain ⟨n, hn, rfl, hposition⟩ := h.dragging name hname
  rw [← Diagram.arrange_unplaced h.nodup_names h.placed_by_arranging]
  exact h.placed_by_arranging n hn hposition

theorem beginDrag (h : s.HasOpened schema) (entity : String) (pointer : Point α) :
    (s.beginDrag entity pointer).1.HasOpened schema := by
  rcases s.beginDrag_cases entity pointer with hsame | ⟨drag, hdrag, hbegun⟩
  · rwa [hsame]
  · obtain ⟨-, n, corner, p, hn, hcorner, -, rfl⟩ := exists_of_dragFrom_eq_ok hdrag
    rw [hbegun]
    refine h.of_unplaced_eq rfl h.placed_by_arranging ?_
    intro name hname
    obtain rfl : entity = name := by simpa [Session.dragging] using hname
    exact ⟨n, List.mem_of_find?_eq_some hn, by simpa using List.find?_some hn, hcorner ▸ rfl⟩

theorem dragTo (h : s.HasOpened schema) (pointer : Point α) (area : Option (Size α)) :
    (s.dragTo pointer area).1.HasOpened schema := by
  rcases s.dragTo_cases pointer area with hsame | ⟨entity, corner, htarget, hdragged⟩
  · rwa [hsame]
  · obtain ⟨drag, n, p, hdrag, -, -, heq⟩ := exists_of_dragTarget_eq_ok htarget
    obtain rfl : entity = drag.entity := congrArg Prod.fst heq
    have hplace := h.dragging drag.entity (by simp [Session.dragging, hdrag])
    rw [hdragged]
    refine h.of_unplaced_eq (Diagram.unplaced_setPosition _ _ _)
      (h.placed_by_arranging.setPosition hplace _) ?_
    intro name hname
    obtain ⟨m, hm, hname, hposition⟩ := h.dragging name hname
    obtain ⟨k, hk, rfl | rfl⟩ := exists_mem_modifyFirst (fun n : Node α => n.name = drag.entity)
      ({ · with position := some corner }) hm
    · exact ⟨k, hk, hname, hposition⟩
    · exact ⟨_, hk, hname, rfl⟩

end HasOpened

/-- A schema without violations is open as soon as it is measured. -/
theorem hasOpened_measure (s : Session α) (valid : schema.violation? = none) :
    HasOpened { s with diagram := (Diagram.ofSchema schema).measure, drag := none } schema := by
  refine ⟨by simp, valid, by simp [Diagram.measure], ?_, by simp [dragging]⟩
  intro n hn hposition
  obtain ⟨m, hm, rfl⟩ := List.mem_map.mp hn
  obtain ⟨e, -, rfl⟩ := List.mem_map.mp hm
  contradiction

theorem hasOpened_openSchema (s : Session α) (valid : schema.violation? = none) :
    (s.openSchema schema).1.HasOpened schema := (hasOpened_measure s valid).autoLayout

theorem HasOpened.load (h : s.HasOpened schema) (source : String) :
    (s.load source).1.HasOpened
      ((Operation.load source : Operation α).schema?.getD schema) := by
  rcases s.load_cases source with ⟨error, -, hnone, hsame⟩ | ⟨document, hparse, hsome, hopen⟩
  · rwa [hnone, hsame]
  · obtain ⟨blocks, -, valid, rfl⟩ := (Source.parse_eq_ok_iff _ _).mp hparse
    rw [hsome, hopen]
    exact s.hasOpened_openSchema valid

/-- Every operation leaves a session with the schema it has read, or the one before. -/
theorem HasOpened.perform (h : s.HasOpened schema) (operation : Operation α) :
    (s.perform operation).1.HasOpened (operation.schema?.getD schema) := by
  cases operation with
  | load source => exact h.load source
  | autoLayout => exact h.autoLayout
  | redraw => exact h
  | zoomIn | zoomOut | resetZoom => exact h.congr rfl rfl rfl
  | beginDrag entity pointer => exact h.beginDrag entity pointer
  | dragTo pointer area => exact h.dragTo pointer area
  | endDrag =>
    refine h.of_unplaced_eq rfl h.placed_by_arranging ?_
    intro name hname
    contradiction

omit [Scalar α] [Layered.ComponentLayout α] in
theorem lastSchema?_cons_getD (operation : Operation α) (rest : List (Operation α))
    (schema : Schema) : (Operation.lastSchema? (operation :: rest)).getD schema =
      (Operation.lastSchema? rest).getD (operation.schema?.getD schema) := by
  cases hread : operation.schema? with
  | none =>
    rw [Operation.lastSchema?, List.filterMap_cons_none hread, Option.getD_none]
    rfl
  | some read =>
    rw [Operation.lastSchema?, List.filterMap_cons_some hread, List.getLast?_cons, Option.getD_some,
      Option.getD_some]
    rfl

/-- After a run a session has the schema that was read last. -/
theorem HasOpened.run (h : s.HasOpened schema) (operations : List (Operation α)) :
    (s.run operations).HasOpened ((Operation.lastSchema? operations).getD schema) := by
  induction operations generalizing s schema with
  | nil => exact h
  | cons operation rest ih =>
    rw [lastSchema?_cons_getD]
    exact ih (h.perform operation)

/-- Whether what is shown is laid out to its end depends on the options and the schema alone. -/
theorem HasOpened.result_arrange (h : s.HasOpened schema) : (s.diagram.arrange s.options).2 =
    ((Diagram.ofSchema schema : Diagram α).measure.arrange s.options).2 := by
  rw [← Diagram.result_arrange_unplaced, Diagram.unplaced_eq_of_measured h.measured, h.schema_eq]

end Session

end EntityDiagram
