import EntityDiagram.Proofs.Session.Steps
import EntityDiagram.Scalar.Number

/-! What a failing operation leaves behind. Everything that can be refused is refused before a
session changes. Only when a dragged entity has been moved already, and arithmetic then fails in the
new drawing, does a failure leave a session with a change. -/
namespace EntityDiagram.Session

/-- Only arithmetic fails in what is computed from a pointer. -/
lemma ne_session_of_bind_eq_error {α β : Type} {x : Except ArithmeticFault α}
    {f : α → Except SessionFailure β} (error : SessionError)
    (hf : ∀ a, f a ≠ .error (.session error)) :
    (x.mapError SessionFailure.arithmetic >>= f) ≠ .error (.session error) := by
  cases x with
  | error fault =>
    intro h
    cases h
  | ok a => exact hf a

variable {α : Type} [Scalar α] {s : Session α}

/-- Drawing anew fails with arithmetic alone. -/
theorem exists_fault_of_redraw_eq_error {failure : SessionFailure}
    (h : s.redraw.2 = .error failure) :
    ∃ fault, s.diagram.draw = .error fault ∧ failure = .arithmetic fault := by
  unfold redraw at h
  cases hdraw : s.diagram.draw with
  | error fault =>
    rw [hdraw] at h
    exact ⟨fault, rfl, (Except.error.inj h).symm⟩
  | ok drawing =>
    rw [hdraw] at h
    contradiction

/-- Laying out anew fails with arithmetic alone, too. -/
theorem exists_fault_of_autoLayout_eq_error [Layered.ComponentLayout α] {failure : SessionFailure}
    (h : s.autoLayout.2 = .error failure) : ∃ fault, failure = .arithmetic fault := by
  rcases s.autoLayout_cases with ⟨-, heq⟩ | ⟨fault, -, heq⟩
  · rw [heq] at h
    obtain ⟨fault, -, hfailure⟩ := exists_fault_of_redraw_eq_error h
    exact ⟨fault, hfailure⟩
  · rw [heq] at h
    exact ⟨fault, (Except.error.inj h).symm⟩

/-- A drag is refused when one is going on, or when the entity is not there or has no place. -/
theorem exists_dragFrom_eq_session_error_iff {entity : String} {pointer : Point α} :
    (∃ error, s.dragFrom entity pointer = .error (.session error)) ↔
      s.drag.isSome ∨ entity ∉ s.diagram.schema.entities.map (·.name) ∨
        ∃ n, s.diagram.node? entity = some n ∧ n.position = none := by
  rw [← Diagram.isSome_node?_iff]
  unfold dragFrom
  cases s.drag with
  | some drag => simp
  | none =>
    cases s.diagram.node? entity with
    | none => simp
    | some n =>
      cases hposition : n.position with
      | none => simp [hposition]
      | some corner =>
        simp only [Option.isSome_none, Bool.false_eq_true, Option.isSome_some, not_true_eq_false,
          Option.some.injEq, exists_eq_left', hposition, reduceCtorEq, or_self, iff_false]
        rintro ⟨error, h⟩
        refine ne_session_of_bind_eq_error error ?_ h
        intro offset h
        contradiction

/-- A move is refused when no drag is going on, or when its entity is not there. -/
theorem exists_dragTarget_eq_session_error_iff {pointer : Point α} {area : Option (Size α)} :
    (∃ error, s.dragTarget pointer area = .error (.session error)) ↔
      s.drag = none ∨ ∃ drag, s.drag = some drag ∧
        drag.entity ∉ s.diagram.schema.entities.map (·.name) := by
  simp only [← Diagram.isSome_node?_iff]
  unfold dragTarget
  cases s.drag with
  | none => simp
  | some drag =>
    cases hn : s.diagram.node? drag.entity with
    | none => simp [hn]
    | some n =>
      simp only [reduceCtorEq, Option.some.injEq, exists_eq_left', hn, Option.isSome_some,
        not_true_eq_false, or_self, iff_false]
      rintro ⟨error, h⟩
      refine ne_session_of_bind_eq_error error ?_ h
      intro corner
      cases area with
      | none =>
        intro h
        contradiction
      | some area =>
        refine ne_session_of_bind_eq_error error ?_
        intro space h
        contradiction

theorem exists_beginDrag_eq_session_error_iff {entity : String} {pointer : Point α} :
    (∃ error, (s.beginDrag entity pointer).2 = .error (.session error)) ↔
      ∃ error, s.dragFrom entity pointer = .error (.session error) := by
  unfold beginDrag
  cases s.dragFrom entity pointer with
  | error failure => simp
  | ok drag => simp

/-- The new drawing refuses nothing, so a move is refused before the entity is moved. -/
theorem exists_dragTo_eq_session_error_iff {pointer : Point α} {area : Option (Size α)} :
    (∃ error, (s.dragTo pointer area).2 = .error (.session error)) ↔
      ∃ error, s.dragTarget pointer area = .error (.session error) := by
  unfold dragTo
  cases s.dragTarget pointer area with
  | error failure => simp
  | ok target =>
    simp only [reduceCtorEq, exists_false, iff_false]
    rintro ⟨error, h⟩
    obtain ⟨fault, -, hfailure⟩ := exists_fault_of_redraw_eq_error h
    contradiction

/-- A beginning that fails changes nothing. -/
theorem beginDrag_of_eq_error {entity : String} {pointer : Point α} {failure : SessionFailure}
    (h : (s.beginDrag entity pointer).2 = .error failure) : (s.beginDrag entity pointer).1 = s := by
  unfold beginDrag at h ⊢
  cases hdrag : s.dragFrom entity pointer with
  | error failure => rfl
  | ok drag =>
    rw [hdrag] at h
    contradiction

/-- A move that fails changes nothing, or it has changed one position and the diagram so changed has
no drawing. -/
theorem dragTo_cases_of_eq_error {pointer : Point α} {area : Option (Size α)}
    {failure : SessionFailure} (h : (s.dragTo pointer area).2 = .error failure) :
    (s.dragTo pointer area).1 = s ∨ ∃ drag corner fault,
      s.drag = some drag ∧ (s.scale == 0) = false ∧ failure = .arithmetic fault ∧
      (s.diagram.setPosition drag.entity (some corner)).draw = .error fault ∧
      (s.dragTo pointer area).1 =
        { s with diagram := s.diagram.setPosition drag.entity (some corner) } := by
  unfold dragTo at h ⊢
  cases htarget : s.dragTarget pointer area with
  | error failure => exact .inl rfl
  | ok target =>
    obtain ⟨drag, n, p, hdrag, -, hp, rfl⟩ := exists_of_dragTarget_eq_ok htarget
    rw [htarget] at h
    obtain ⟨fault, hdraw, rfl⟩ := exists_fault_of_redraw_eq_error h
    exact .inr ⟨drag, _, fault, hdrag, (toDiagram_eq_ok_iff.mp hp).2.1, rfl, hdraw, rfl⟩

variable [Layered.ComponentLayout α]

/-- A source that cannot be read, a drag that is refused and a scale of zero leave a session as it
was, and drags are refused for the reasons named here alone. A move that fails later, in the
arithmetic of the new drawing, leaves the entity at its new place. -/
theorem failures_leave_session (s : Session α) :
    (∀ source error, (s.load source).2 = .error (.source error) → (s.load source).1 = s) ∧
    (∀ entity pointer failure, (s.beginDrag entity pointer).2 = .error failure →
      (s.beginDrag entity pointer).1 = s) ∧
    (∀ pointer area failure, (s.dragTo pointer area).2 = .error failure →
      (s.dragTo pointer area).1 = s ∨ ∃ drag corner fault,
        s.drag = some drag ∧ (s.scale == 0) = false ∧ failure = .arithmetic fault ∧
        (s.diagram.setPosition drag.entity (some corner)).draw = .error fault ∧
        (s.dragTo pointer area).1 =
          { s with diagram := s.diagram.setPosition drag.entity (some corner) }) ∧
    (∀ entity pointer, (∃ error, (s.beginDrag entity pointer).2 = .error (.session error)) ↔
      s.drag.isSome ∨ entity ∉ s.diagram.schema.entities.map (·.name) ∨
        ∃ n, s.diagram.node? entity = some n ∧ n.position = none) ∧
    ∀ pointer area, (∃ error, (s.dragTo pointer area).2 = .error (.session error)) ↔
      s.drag = none ∨ ∃ drag, s.drag = some drag ∧
        drag.entity ∉ s.diagram.schema.entities.map (·.name) := by
  refine ⟨?_, ?_, ?_, ?_, ?_⟩
  · intro source error h
    rcases s.load_cases source with ⟨_, -, -, hload⟩ | ⟨document, -, -, hopen⟩
    · rw [hload]
    · rw [hopen] at h
      obtain ⟨fault, hfailure⟩ := exists_fault_of_autoLayout_eq_error h
      contradiction
  · intro entity pointer failure h
    exact beginDrag_of_eq_error h
  · intro pointer area failure h
    exact dragTo_cases_of_eq_error h
  · intro entity pointer
    rw [exists_beginDrag_eq_session_error_iff, exists_dragFrom_eq_session_error_iff]
  · intro pointer area
    rw [exists_dragTo_eq_session_error_iff, exists_dragTarget_eq_session_error_iff]

/-- A drag between two boxes as wide as doubles allow: the difference of their centers is no number,
and the entity stays where it was moved to. -/
theorem not_forall_dragTo_divisionByZero_leaves_session :
    ¬∀ (s : Session Number) (pointer : Point Number) (area : Option (Size Number)),
      (s.dragTo pointer area).2 = .error (.arithmetic .divisionByZero) →
        (s.dragTo pointer area).1 = s := by
  let s : Session Number :=
    { options := .default
      diagram :=
        { nodes :=
            [⟨⟨"A", [⟨"id", "n", false, false, none⟩], []⟩, some ⟨.double 1.5e308, .double 0⟩,
                some ⟨.double 1.5e308, .double 10⟩⟩,
              ⟨⟨"B", [], [⟨"a", "n", false, false, some ⟨"A", "id"⟩⟩]⟩,
                some ⟨.double 0, .double 0⟩, some ⟨.double 1.5e308, .double 10⟩⟩]
          relationships := [⟨⟨"B", "a"⟩, ⟨"A", "id"⟩, none⟩]
          generalizations := [] }
      scale := .double 1
      drag := some ⟨"B", ⟨.double 0, .double 0⟩⟩ }
  intro h
  have hfault : (s.dragTo ⟨.double 1.5e308, .double 0⟩ none).2 =
      .error (.arithmetic .divisionByZero) := by decide +kernel
  have hmoved : (s.dragTo ⟨.double 1.5e308, .double 0⟩ none).1 ≠ s := by decide +kernel
  exact hmoved (h s _ _ hfault)

end EntityDiagram.Session
