import EntityDiagram.Proofs.Layout.Completion
import EntityDiagram.Proofs.Session.Invariant

/-! What a session that was made from a source shows. Where rows fit, every entity has a place after
every step, and every drawing begins with the boxes of all entities. Where they do not, some source
leaves an entity without a place. -/
namespace EntityDiagram

/-- A drawing that begins with the boxes of all entities, in order and at their places, and has no
other box. -/
def Drawing.HasBoxesOf {α : Type} (drawing : Drawing α) (nodes : List (Node α)) : Prop :=
  ∃ (rect : Node α → Rect α) (rest : List (Primitive α)),
    (∀ n ∈ nodes, n.rect = .ok (rect n)) ∧
    drawing.primitives = (nodes.map fun n => .box (n.boxIn (rect n))) ++ rest ∧
    ∀ p ∈ rest, p.isBox = false

namespace Session

variable {α : Type} [Scalar α] [Layered.ComponentLayout α]

/-- A session shows a schema that it has opened: every entity has a place. -/
structure Shows (s : Session α) (schema : Schema) : Prop extends s.HasOpened schema where
  placed : ∀ n ∈ s.diagram.nodes, n.position.isSome

variable {s : Session α} {schema : Schema}

namespace Shows

theorem of_autoLayout (h : s.HasOpened schema)
    (hresult : (s.diagram.arrange s.options).2 = .ok ()) : s.autoLayout.1.Shows schema := by
  refine ⟨h.autoLayout, ?_⟩
  rw [fst_autoLayout]
  intro m hm
  obtain ⟨n, -, corner, rfl⟩ :=
    (Diagram.places_arrange h.nodup_names hresult).exists_of_mem hm
  rfl

theorem autoLayout (h : s.HasOpened schema) (hall : s.options.ArrangesAll α) :
    s.autoLayout.1.Shows schema :=
  of_autoLayout h (h.result_arrange.trans (hall schema))

/-- A schema without violations that is opened is shown. -/
theorem openSchema (s : Session α) (valid : schema.violation? = none)
    (hall : s.options.ArrangesAll α) : (s.openSchema schema).1.Shows schema :=
  autoLayout (hasOpened_measure s valid) hall

/-- Every operation leaves a session that shows the schema it has read, or the one before. -/
theorem perform (h : s.Shows schema) (hall : s.options.ArrangesAll α) (operation : Operation α) :
    (s.perform operation).1.Shows (operation.schema?.getD schema) := by
  refine ⟨h.toHasOpened.perform operation, ?_⟩
  cases operation with
  | load source =>
    change ∀ n ∈ (s.load source).1.diagram.nodes, n.position.isSome
    rcases s.load_cases source with ⟨error, -, -, hsame⟩ | ⟨document, hparse, -, hopen⟩
    · rw [hsame]
      exact h.placed
    · obtain ⟨blocks, -, valid, rfl⟩ := (Source.parse_eq_ok_iff _ _).mp hparse
      rw [hopen]
      exact (openSchema s valid hall).placed
  | autoLayout => exact (autoLayout h.toHasOpened hall).placed
  | beginDrag entity pointer =>
    change ∀ n ∈ (s.beginDrag entity pointer).1.diagram.nodes, n.position.isSome
    rcases s.beginDrag_cases entity pointer with hsame | ⟨drag, -, hbegun⟩
    · rw [hsame]
      exact h.placed
    · rw [hbegun]
      exact h.placed
  | dragTo pointer area =>
    change ∀ n ∈ (s.dragTo pointer area).1.diagram.nodes, n.position.isSome
    rcases s.dragTo_cases pointer area with hsame | ⟨entity, corner, -, hdragged⟩
    · rw [hsame]
      exact h.placed
    · rw [hdragged]
      intro m hm
      rcases mem_modifyFirst hm with hm | ⟨n, -, -, rfl⟩
      · exact h.placed m hm
      · rfl
  | _ => exact h.placed

/-- After a run a session shows the schema that was read last. -/
theorem run (h : s.Shows schema) (hall : s.options.ArrangesAll α)
    (operations : List (Operation α)) :
    (s.run operations).Shows ((Operation.lastSchema? operations).getD schema) := by
  induction operations generalizing s schema with
  | nil => exact h
  | cons operation rest ih =>
    rw [lastSchema?_cons_getD]
    exact ih (h.perform hall operation) (by rwa [options_perform])

end Shows

/-- A drawing of a schema without violations misses no name. -/
theorem HasOpened.inconsistency_notMem_errors (h : s.HasOpened schema) {drawing : Drawing α}
    (hdrawing : s.diagram.draw = .ok drawing) (e : Inconsistency) :
    .inconsistency e ∉ drawing.errors :=
  Diagram.inconsistency_notMem_errors (h.schema_eq.symm ▸ h.valid) hdrawing e

/-- A drawing of what is shown has all boxes. -/
theorem Shows.hasBoxesOf (h : s.Shows schema) {drawing : Drawing α}
    (hdrawing : s.diagram.draw = .ok drawing) : drawing.HasBoxesOf s.diagram.nodes := by
  have hrect : ∀ n ∈ s.diagram.nodes, ∃ rect, n.rect = .ok rect := by
    intro n hn
    obtain ⟨corner, hcorner⟩ := Option.isSome_iff_exists.mp (h.placed n hn)
    unfold Node.rect
    rw [hcorner, h.measured n hn]
    exact ⟨_, rfl⟩
  let rect (n : Node α) : Rect α := n.rect.toOption.getD ⟨0, 0, 0, 0⟩
  have hplace : ∀ n ∈ s.diagram.nodes, n.rect = .ok (rect n) := by
    intro n hn
    obtain ⟨r, hr⟩ := hrect n hn
    simp [rect, hr, Except.toOption]
  obtain ⟨rest, hboxes, hrest⟩ := Diagram.exists_boxes_of_draw_eq_ok hdrawing hplace
  exact ⟨rect, rest, hplace, hboxes, hrest⟩

/-- A session is made from a source that can be read, when its entities are arranged to the end. -/
lemma shows_of_fromSource_eq_ok {source : String} {options : Options}
    (h : fromSource source options = .ok s) : ∃ schema,
      (Operation.load source : Operation α).schema? = some schema ∧ s.Shows schema ∧
        s.options = options := by
  have hmap : ((create Diagram.empty options : Session α).load source).2.map
      (fun _ => ((create Diagram.empty options : Session α).load source).1) = .ok s := h
  obtain ⟨drawing, hdrawing, rfl⟩ := map_eq_ok_iff.mp hmap
  rcases (create Diagram.empty options : Session α).load_cases source with
    ⟨error, -, -, hload⟩ | ⟨document, hparse, hsome, hopen⟩
  · rw [hload] at hdrawing
    contradiction
  · obtain ⟨blocks, -, valid, rfl⟩ := (Source.parse_eq_ok_iff _ _).mp hparse
    refine ⟨_, hsome, ?_, options_perform _ (.load source)⟩
    rw [hopen] at hdrawing ⊢
    exact Shows.of_autoLayout (hasOpened_measure _ valid) (result_of_autoLayout_eq_ok hdrawing)

/-- Where rows do not fit, a source with two entities leaves one of them without a place. -/
theorem exists_load_of_not_rowsFit [Layered.ComponentLayout Number] {s : Session Number}
    (h : ¬s.options.RowsFit) :
    ∃ text, ∃ n ∈ (s.load text).1.diagram.nodes, n.position = none := by
  have hparse : Source.parse "Entity A \x7b\x7d\nEntity B \x7b\x7d" = .ok ⟨Diagram.loners, []⟩ := by
    decide +kernel
  refine ⟨"Entity A \x7b\x7d\nEntity B \x7b\x7d", ?_⟩
  rw [load, hparse]
  dsimp only
  rw [openSchema, fst_autoLayout]
  exact (Diagram.arrange_loners h).2

/-- However a session that was made from a source is used, on a grid or in layers, it has the schema
of the last source that could be read: every entity of it is measured, only one of them that has a
place can be dragged, and no drawing misses a name. Where rows fit, all entities have a place, and
every drawing that a step answers with begins with one box for each and has no other box. Where rows
do not fit, some source could be read next that leaves an entity without a place. -/
theorem fromSource_shows_lastSchema [Layered.ComponentLayout Number] {source : String}
    {options : Options} {start : Session Number} (h : fromSource source options = .ok start)
    (operations : List (Operation Number)) :
    ∃ schema, Operation.lastSchema? (.load source :: operations) = some schema ∧
      (start.run operations).HasOpened schema ∧
      (∀ operation drawing,
        ((start.run operations).perform operation).2 = .ok (.drawing drawing) →
          ∀ e, .inconsistency e ∉ drawing.errors) ∧
      (options.RowsFit → (start.run operations).Shows schema ∧ ∀ operation drawing,
        ((start.run operations).perform operation).2 = .ok (.drawing drawing) →
          drawing.HasBoxesOf ((start.run operations).perform operation).1.diagram.nodes) ∧
      (¬options.RowsFit → ∃ text, ∃ n ∈ ((start.run operations).load text).1.diagram.nodes,
        n.position = none) := by
  obtain ⟨schema, hread, hshows, rfl⟩ := shows_of_fromSource_eq_ok h
  have hopened := hshows.toHasOpened.run operations
  refine ⟨_, ?_, hopened, ?_, ?_, ?_⟩
  · rw [Operation.lastSchema?, List.filterMap_cons_some hread, List.getLast?_cons]
    rfl
  · intro operation drawing hdrawing
    exact (hopened.perform operation).inconsistency_notMem_errors (draw_of_perform_eq hdrawing)
  · intro hrows
    have hall := Options.arrangesAll_number_iff.mpr hrows
    have hrun := hshows.run hall operations
    refine ⟨hrun, ?_⟩
    intro operation drawing hdrawing
    exact (hrun.perform (by rwa [options_run]) operation).hasBoxesOf (draw_of_perform_eq hdrawing)
  · intro hrows
    exact exists_load_of_not_rowsFit (by rwa [options_run])

/-- A source that cannot be read in the middle of a drag, in layers. -/
theorem fromSource_shows_lastSchema_of_failed_load :
    ∃ start : Session Number, fromSource
        "Entity A \x7b\n+id: n\x7d\nEntity B \x7b\nb: n FK -> A.id\x7d"
        { Options.default with arrangement := .layered } = .ok start ∧
      ∃ schema, (start.run [.beginDrag "B" ⟨0, 0⟩, .load "Entity", .autoLayout]).Shows schema ∧
        schema.entities.length = 2 := by
  have hok : (fromSource (α := Number)
      "Entity A \x7b\n+id: n\x7d\nEntity B \x7b\nb: n FK -> A.id\x7d"
      { Options.default with arrangement := .layered }).isOk = true := by decide +kernel
  cases h : fromSource (α := Number)
      "Entity A \x7b\n+id: n\x7d\nEntity B \x7b\nb: n FK -> A.id\x7d"
      { Options.default with arrangement := .layered } with
  | error failure =>
    rw [h] at hok
    contradiction
  | ok start =>
    obtain ⟨schema, hread, -, -, hfit, -⟩ := fromSource_shows_lastSchema h
      [.beginDrag "B" ⟨0, 0⟩, .load "Entity", .autoLayout]
    refine ⟨start, rfl, schema, (hfit fun _ => ⟨by decide +kernel, by decide +kernel⟩).1, ?_⟩
    have hlast : (Operation.lastSchema? [.load
        "Entity A \x7b\n+id: n\x7d\nEntity B \x7b\nb: n FK -> A.id\x7d",
        .beginDrag "B" ⟨0, 0⟩, .load "Entity", (.autoLayout : Operation Number)]).map
          (·.entities.length) = some 2 := by decide +kernel
    rw [hread] at hlast
    exact Option.some.inj hlast

/-- An empty source is shown with any padding, but the entity of the next source gets no place: the
padding is too large for a double. -/
theorem not_forall_fromSource_placed :
    ¬∀ (source : String) (options : Options) (start : Session Number)
        (operations : List (Operation Number)), fromSource source options = .ok start →
      ∀ n ∈ (start.run operations).diagram.nodes, n.position.isSome := by
  let options : Options :=
    { Options.default with padding := some (10 ^ 400), arrangement := .layered }
  intro h
  have hstart : fromSource "" options = .ok (create (Diagram.empty : Diagram Number) options) := by
    decide +kernel
  have hplaced := h "" options _ [.load "Entity A \x7b\x7d"] hstart
    ⟨⟨"A", [], []⟩, none, some ⟨140, 54⟩⟩ (by decide +kernel)
  contradiction

end Session

end EntityDiagram
