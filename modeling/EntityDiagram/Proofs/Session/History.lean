import EntityDiagram.Proofs.Session.Invariant
import EntityDiagram.Scalar.Number

/-! What a session forgets: reading a source depends on the options alone, and placing the entities
anew brings back what the source showed at first, whatever was dragged or scaled in between. -/
namespace EntityDiagram

namespace Session

variable {α : Type} [Scalar α] [Layered.ComponentLayout α] {s t : Session α} {schema : Schema}

/-- Two outcomes with the same diagram and the same drawing, or the same failure. -/
def Outcome.SameView (first second : Outcome α (Drawing α)) : Prop :=
  first.1.diagram = second.1.diagram ∧ first.2 = second.2

/-- An arrangement and its drawing depend on what is arranged and on the options alone. -/
theorem autoLayout_sameView (h : s.diagram.arrange s.options = t.diagram.arrange t.options) :
    Outcome.SameView s.autoLayout t.autoLayout := by
  unfold autoLayout
  rw [h]
  obtain ⟨diagram, result⟩ := t.diagram.arrange t.options
  cases result <;> exact ⟨rfl, rfl⟩

/-- Placing anew what has been opened is opening its schema. -/
theorem HasOpened.autoLayout_sameView (h : s.HasOpened schema) (hoptions : s.options = t.options) :
    Outcome.SameView s.autoLayout (t.openSchema schema) := by
  apply Session.autoLayout_sameView
  dsimp only
  rw [← Diagram.arrange_unplaced h.nodup_names h.placed_by_arranging,
    Diagram.unplaced_eq_of_measured h.measured, h.schema_eq, hoptions]

/-- What a source shows depends on the options of the session and on nothing else; and after any run
of operations that read no other source, placing the entities anew shows it again. -/
theorem load_forgets_history {source : String} {document : Source.Document}
    (hparse : Source.parse source = .ok document) (hoptions : s.options = t.options) :
    Outcome.SameView (s.load source) (t.load source) ∧
      ∀ operations : List (Operation α), (∀ operation ∈ operations, operation.schema? = none) →
        Outcome.SameView ((s.load source).1.run operations).autoLayout (t.load source) := by
  have hload : ∀ u : Session α, u.load source = u.openSchema document.schema := by
    intro u
    rw [load, hparse]
  obtain ⟨blocks, -, valid, hdocument⟩ := (Source.parse_eq_ok_iff _ _).mp hparse
  have hopened : (s.load source).1.HasOpened document.schema := by
    rw [hload, hdocument]
    exact s.hasOpened_openSchema valid
  constructor
  · rw [hload s, hload t]
    apply autoLayout_sameView
    dsimp only
    rw [hoptions]
  · intro operations hread
    have hnone : Operation.lastSchema? operations = none := by
      rw [Operation.lastSchema?, List.filterMap_eq_nil_iff.mpr hread, List.getLast?_nil]
    have hrun := hopened.run operations
    rw [hnone, Option.getD_none] at hrun
    rw [hload t]
    apply hrun.autoLayout_sameView
    rw [options_run]
    exact (s.options_perform (.load source)).trans hoptions

/-- A drag in layers moves an entity away and is forgotten, in a session of another scale too. -/
theorem load_forgets_history_of_drag :
    let source := "Entity A {
+id: n}
Entity B {
b: n FK -> A.id}"
    let s : Session Number :=
      create Diagram.empty { Options.default with arrangement := .layered }
    let dragged := (s.load source).1.run [.zoomIn, .beginDrag "B" ⟨0, 0⟩, .dragTo ⟨70, 7⟩ none]
    let t : Session Number := { s with scale := 3 }
    dragged.diagram ≠ (s.load source).1.diagram ∧
      Outcome.SameView (s.load source) (t.load source) ∧
        Outcome.SameView dragged.autoLayout (t.load source) := by
  intro source s dragged t
  refine ⟨by decide +kernel, ?_⟩
  have hok : (Source.parse source).isOk = true := by decide +kernel
  cases hparse : Source.parse source with
  | error error =>
    rw [hparse] at hok
    contradiction
  | ok document =>
    obtain ⟨hload, hrun⟩ := load_forgets_history (s := s) (t := t) hparse rfl
    refine ⟨hload, hrun _ ?_⟩
    intro operation hoperation
    simp only [List.mem_cons, List.not_mem_nil, or_false] at hoperation
    rcases hoperation with rfl | rfl | rfl <;> rfl

end Session

end EntityDiagram
