import EntityDiagram.Session.Operation
import EntityDiagram.Proofs.Drawing.Parts
import EntityDiagram.Proofs.Layout.Placement

/-! What the operations of a session can do, one lemma for each: when a drag begins and where it
leads, which diagram a source opens, and that every drawing is of the diagram that is left. -/
namespace EntityDiagram.Session

variable {α : Type}

lemma eq_ok_of_map_eq_drawing {x : Except SessionFailure (Drawing α)}
    {drawing : Drawing α} (h : x.map Answer.drawing = .ok (.drawing drawing)) :
    x = .ok drawing := by
  obtain ⟨_, hx, hanswer⟩ := map_eq_ok_iff.mp h
  rw [hx, Answer.drawing.inj hanswer]

section

variable [Scalar α] {s : Session α}

/-- At scale zero no point of the screen shows a point of the diagram, and a point that is too far
away shows none either. -/
theorem toDiagram_eq_ok_iff {pointer p : Point α} : s.toDiagram pointer = .ok p ↔
    (Scalar.fits pointer.x = true ∧ Scalar.fits pointer.y = true ∧ Scalar.fits s.scale = true) ∧
      (s.scale == 0) = false ∧ p = ⟨pointer.x / s.scale, pointer.y / s.scale⟩ := by
  unfold toDiagram
  simp only [bind_eq_ok_iff, Scalar.quotient_eq_ok_iff]
  constructor
  · rintro ⟨x, ⟨⟨hx, hscale⟩, hzero, rfl⟩, y, ⟨⟨hy, -⟩, -, rfl⟩, h⟩
    exact ⟨⟨hx, hy, hscale⟩, hzero, (Except.ok.inj h).symm⟩
  · rintro ⟨⟨hx, hy, hscale⟩, hzero, rfl⟩
    exact ⟨_, ⟨⟨hx, hscale⟩, hzero, rfl⟩, _, ⟨⟨hy, hscale⟩, hzero, rfl⟩, rfl⟩

theorem exists_of_offsetFrom_eq_ok {origin pointer offset : Point α}
    (h : s.offsetFrom origin pointer = .ok offset) : ∃ p, s.toDiagram pointer = .ok p ∧
      offset = ⟨p.x - origin.x, p.y - origin.y⟩ := by
  simp only [offsetFrom, bind_eq_ok_iff, Scalar.difference_eq_ok_iff] at h
  obtain ⟨p, hp, x, ⟨-, rfl⟩, y, ⟨-, rfl⟩, h⟩ := h
  exact ⟨p, hp, (Except.ok.inj h).symm⟩

omit s in
theorem eq_of_room_eq_ok {area bounds space : Size α} (h : room area bounds = .ok space) :
    space = ⟨area.width - bounds.width, area.height - bounds.height⟩ := by
  simp only [room, bind_eq_ok_iff, Scalar.difference_eq_ok_iff] at h
  obtain ⟨width, ⟨-, rfl⟩, height, ⟨-, rfl⟩, h⟩ := h
  exact (Except.ok.inj h).symm

/-- A drag begins only when none is going on, and only with an entity that has a place. -/
theorem exists_of_dragFrom_eq_ok {entity : String} {pointer : Point α} {drag : Drag α}
    (h : s.dragFrom entity pointer = .ok drag) :
    s.drag = none ∧ ∃ n corner p, s.diagram.node? entity = some n ∧ n.position = some corner ∧
      s.toDiagram pointer = .ok p ∧ drag = ⟨entity, ⟨p.x - corner.x, p.y - corner.y⟩⟩ := by
  unfold dragFrom at h
  split at h
  · contradiction
  · rename_i hdrag
    refine ⟨hdrag, ?_⟩
    split at h
    · contradiction
    · rename_i n hn
      split at h
      · contradiction
      · rename_i corner hcorner
        obtain ⟨offset, hoffset, h⟩ := bind_eq_ok_iff.mp h
        obtain ⟨p, hp, rfl⟩ := exists_of_offsetFrom_eq_ok (mapError_eq_ok_iff.mp hoffset)
        exact ⟨n, corner, p, hn, hcorner, hp, (Except.ok.inj h).symm⟩

/-- The corner of a dragged entity: the pointer less the offset of the drag, inside the area if one
is given. -/
def draggedCorner (drag : Drag α) (p : Point α) (area : Option (Size α)) (bounds : Size α) :
    Point α :=
  let corner : Point α := ⟨p.x - drag.offset.x, p.y - drag.offset.y⟩
  match area with
  | none => corner
  | some area => keepInside corner ⟨area.width - bounds.width, area.height - bounds.height⟩

/-- A drag leads its entity somewhere only while it is going on and the entity is there. -/
theorem exists_of_dragTarget_eq_ok {pointer : Point α} {area : Option (Size α)}
    {target : String × Point α} (h : s.dragTarget pointer area = .ok target) :
    ∃ drag n p, s.drag = some drag ∧ s.diagram.node? drag.entity = some n ∧
      s.toDiagram pointer = .ok p ∧
      target = (drag.entity, draggedCorner drag p area (n.bounds.getD ⟨0, 0⟩)) := by
  unfold dragTarget at h
  split at h
  · contradiction
  · rename_i drag hdrag
    split at h
    · contradiction
    · rename_i n hn
      obtain ⟨corner, hcorner, h⟩ := bind_eq_ok_iff.mp h
      obtain ⟨p, hp, rfl⟩ := exists_of_offsetFrom_eq_ok (mapError_eq_ok_iff.mp hcorner)
      refine ⟨drag, n, p, hdrag, hn, hp, ?_⟩
      cases area with
      | none => exact (Except.ok.inj h).symm
      | some area =>
        obtain ⟨space, hspace, h⟩ := bind_eq_ok_iff.mp h
        obtain rfl := eq_of_room_eq_ok (mapError_eq_ok_iff.mp hspace)
        exact (Except.ok.inj h).symm

/-- Beginning a drag changes the drag at most. -/
theorem beginDrag_cases (s : Session α) (entity : String) (pointer : Point α) :
    (s.beginDrag entity pointer).1 = s ∨ ∃ drag, s.dragFrom entity pointer = .ok drag ∧
      (s.beginDrag entity pointer).1 = { s with drag := some drag } := by
  unfold beginDrag
  split
  · exact .inl rfl
  · rename_i drag hdrag
    exact .inr ⟨drag, hdrag, rfl⟩

/-- Dragging changes one position at most. -/
theorem dragTo_cases (s : Session α) (pointer : Point α) (area : Option (Size α)) :
    (s.dragTo pointer area).1 = s ∨ ∃ entity corner,
      s.dragTarget pointer area = .ok (entity, corner) ∧ (s.dragTo pointer area).1 =
        { s with diagram := s.diagram.setPosition entity (some corner) } := by
  unfold dragTo
  split
  · exact .inl rfl
  · rename_i entity corner htarget
    exact .inr ⟨entity, corner, htarget, rfl⟩

theorem draw_of_redraw_eq {drawing : Drawing α} (h : s.redraw.2 = .ok drawing) :
    s.redraw.1.diagram.draw = .ok drawing := mapError_eq_ok_iff.mp h

theorem draw_of_dragTo_eq {drawing : Drawing α} {pointer : Point α} {area : Option (Size α)}
    (h : (s.dragTo pointer area).2 = .ok drawing) :
    (s.dragTo pointer area).1.diagram.draw = .ok drawing := by
  unfold dragTo at h ⊢
  cases htarget : s.dragTarget pointer area with
  | error failure =>
    rw [htarget] at h
    contradiction
  | ok target =>
    rw [htarget] at h
    exact draw_of_redraw_eq h

end

variable [Scalar α] [Layered.ComponentLayout α] {s : Session α}

/-- A session is laid out anew to its end and then drawn, or the arrangement has failed. -/
theorem autoLayout_cases (s : Session α) :
    ((s.diagram.arrange s.options).2 = .ok () ∧
        s.autoLayout = redraw { s with diagram := (s.diagram.arrange s.options).1 }) ∨
      ∃ fault, (s.diagram.arrange s.options).2 = .error fault ∧ s.autoLayout =
        ({ s with diagram := (s.diagram.arrange s.options).1 }, .error (.arithmetic fault)) := by
  unfold autoLayout
  cases hresult : (s.diagram.arrange s.options).2 with
  | ok => exact .inl ⟨rfl, by simp only [hresult]⟩
  | error fault => exact .inr ⟨fault, rfl, by simp only [hresult]⟩

theorem result_of_autoLayout_eq_ok {drawing : Drawing α} (h : s.autoLayout.2 = .ok drawing) :
    (s.diagram.arrange s.options).2 = .ok () := by
  rcases s.autoLayout_cases with ⟨hresult, -⟩ | ⟨fault, -, heq⟩
  · exact hresult
  · rw [heq] at h
    contradiction

/-- Whether an arrangement fails or not, it has moved what it has moved. -/
theorem fst_autoLayout (s : Session α) :
    s.autoLayout.1 = { s with diagram := (s.diagram.arrange s.options).1 } := by
  rcases s.autoLayout_cases with ⟨-, heq⟩ | ⟨fault, -, heq⟩
  · rw [heq]
    rfl
  · rw [heq]

/-- A source that can be read replaces the diagram, any other source changes nothing. -/
theorem load_cases (s : Session α) (source : String) :
    (∃ error, Source.parse source = .error error ∧
        (Operation.load source : Operation α).schema? = none ∧
        s.load source = (s, .error (.source error))) ∨
      ∃ document, Source.parse source = .ok document ∧
        (Operation.load source : Operation α).schema? = some document.schema ∧
        s.load source = s.openSchema document.schema := by
  unfold load
  cases hparse : Source.parse source with
  | error error => exact .inl ⟨error, rfl, by simp [Operation.schema?, hparse], rfl⟩
  | ok document => exact .inr ⟨document, rfl, by simp [Operation.schema?, hparse], rfl⟩

variable {drawing : Drawing α}

theorem draw_of_autoLayout_eq (h : s.autoLayout.2 = .ok drawing) :
    s.autoLayout.1.diagram.draw = .ok drawing := by
  rcases s.autoLayout_cases with ⟨-, heq⟩ | ⟨fault, -, heq⟩
  · rw [heq] at h ⊢
    exact draw_of_redraw_eq h
  · rw [heq] at h
    contradiction

theorem draw_of_load_eq {source : String} (h : (s.load source).2 = .ok drawing) :
    (s.load source).1.diagram.draw = .ok drawing := by
  rcases s.load_cases source with ⟨error, -, -, hsame⟩ | ⟨document, -, -, hopen⟩
  · rw [hsame] at h
    contradiction
  · rw [hopen] at h ⊢
    exact draw_of_autoLayout_eq h

/-- A drawing that an operation answers with is that of the diagram it leaves. -/
theorem draw_of_perform_eq {operation : Operation α}
    (h : (s.perform operation).2 = .ok (.drawing drawing)) :
    (s.perform operation).1.diagram.draw = .ok drawing := by
  cases operation with
  | load source => exact draw_of_load_eq (eq_ok_of_map_eq_drawing h)
  | autoLayout => exact draw_of_autoLayout_eq (eq_ok_of_map_eq_drawing h)
  | redraw => exact draw_of_redraw_eq (eq_ok_of_map_eq_drawing h)
  | zoomIn => cases h
  | zoomOut => cases h
  | resetZoom => cases h
  | beginDrag entity pointer =>
    obtain ⟨_, -, hanswer⟩ := map_eq_ok_iff.mp h
    contradiction
  | dragTo pointer area => exact draw_of_dragTo_eq (eq_ok_of_map_eq_drawing h)
  | endDrag => cases h

end EntityDiagram.Session
