import EntityDiagram.Proofs.Scalar.Exact
import EntityDiagram.Proofs.Scalar.Order
import EntityDiagram.Proofs.Session.Failures
import EntityDiagram.Proofs.Session.History

/-! Dragging an entity. What a drag needs is fixed when it begins, so where a pointer leads the
entity depends neither on earlier pointers nor on the arrangements in between: without an area the
point that was taken hold of stays under the pointer, inside an area the box stays inside. -/
namespace EntityDiagram

/-- Changing the first member that satisfies a test, where that member stands. -/
theorem modifyFirst_append_cons {β : Type} {p : β → Bool} (f : β → β) {before : List β}
    (hbefore : ∀ c ∈ before, p c = false) {b : β} (hb : p b = true) (after : List β) :
    modifyFirst p f (before ++ b :: after) = before ++ f b :: after := by
  induction before with
  | nil => rw [List.nil_append, modifyFirst, if_pos hb, List.nil_append]
  | cons c rest ih =>
    have hc : p c = false := hbefore c List.mem_cons_self
    have hrest := ih fun c hc => hbefore c (List.mem_cons_of_mem _ hc)
    rw [List.cons_append, modifyFirst, hc, hrest]
    rfl

/-- The size of the box of an entity, nothing while the entity is not measured. -/
def Node.size {α : Type} [Scalar α] (n : Node α) : Size α := n.bounds.getD ⟨0, 0⟩

/-- An operation after which a drag may be over. -/
def Operation.endsDrag {α : Type} : Operation α → Bool
  | .load source => (Source.parse source).isOk
  | .endDrag => true
  | _ => false

namespace Session

variable {α : Type}

/-- The first entity of a name is moved to a corner, and nothing else is changed. -/
def Moves (s : Session α) (entity : String) (corner : Point α) (t : Session α) : Prop :=
  ∃ before n after, s.diagram.nodes = before ++ n :: after ∧ n.name = entity ∧
    (∀ m ∈ before, m.name ≠ entity) ∧
    t = { s with diagram :=
      { s.diagram with nodes := before ++ { n with position := some corner } :: after } }

/-- What is moved to where it stands already stays as it is. -/
theorem Moves.eq_of_position {s t : Session α} {entity : String} {corner : Point α}
    (h : s.Moves entity corner t) {m : Node α} (hm : s.diagram.node? entity = some m)
    (hcorner : m.position = some corner) : t = s := by
  obtain ⟨before, n, after, hnodes, hname, hbefore, rfl⟩ := h
  have hfirst : s.diagram.node? entity = some n := by
    rw [Diagram.node?, hnodes, List.find?_append, List.find?_eq_none.mpr (by simpa using hbefore)]
    simp [hname]
  obtain rfl : n = m := Option.some.inj (hfirst.symm.trans hm)
  rw [← hcorner, ← hnodes]

theorem moves_setPosition {s : Session α} {entity : String} {n : Node α}
    (h : s.diagram.node? entity = some n) (corner : Point α) :
    s.Moves entity corner { s with diagram := s.diagram.setPosition entity (some corner) } := by
  obtain ⟨hname, before, after, hnodes, hbefore⟩ := List.find?_eq_some_iff_append.mp h
  have hmodified := modifyFirst_append_cons (p := fun n : Node α => decide (n.name = entity))
    ({ · with position := some corner }) (by simpa using hbefore) hname after
  refine ⟨before, n, after, hnodes, by simpa using hname, by simpa using hbefore, ?_⟩
  unfold Diagram.setPosition Diagram.modifyNode
  rw [hnodes, hmodified]

variable [Scalar α] {s t : Session α} {entity : String} {pointer : Point α} {drag : Drag α}

/-- A move that completes has a target, and has moved the entity there. -/
theorem exists_dragTarget_of_dragTo_eq_ok {area : Option (Size α)} {drawing : Drawing α}
    (h : (t.dragTo pointer area).2 = .ok drawing) : ∃ name corner,
      t.dragTarget pointer area = .ok (name, corner) ∧ (t.dragTo pointer area).1 =
        { t with diagram := t.diagram.setPosition name (some corner) } := by
  unfold dragTo at h ⊢
  cases htarget : t.dragTarget pointer area with
  | error failure =>
    rw [htarget] at h
    contradiction
  | ok target => exact ⟨target.1, target.2, rfl, rfl⟩

variable [Layered.ComponentLayout α]

/-- Until something ends it, a drag goes on as it began, and every operation changes positions
alone. -/
theorem drag_perform {operation : Operation α} (hdrag : s.drag = some drag)
    (hends : operation.endsDrag = false) : (s.perform operation).1.drag = some drag ∧
      (s.perform operation).1.diagram.unplaced = s.diagram.unplaced := by
  cases operation with
  | load source =>
    rcases s.load_cases source with ⟨error, -, -, hsame⟩ | ⟨document, hparse, -⟩
    · change (s.load source).1.drag = some drag ∧ (s.load source).1.diagram.unplaced = _
      rw [hsame]
      exact ⟨hdrag, rfl⟩
    · rw [Operation.endsDrag, hparse] at hends
      contradiction
  | autoLayout =>
    change s.autoLayout.1.drag = some drag ∧ s.autoLayout.1.diagram.unplaced = _
    rw [fst_autoLayout]
    exact ⟨hdrag, s.diagram.unplaced_arrange s.options⟩
  | redraw | zoomIn | zoomOut | resetZoom => exact ⟨hdrag, rfl⟩
  | beginDrag other q =>
    change (s.beginDrag other q).1.drag = some drag ∧ (s.beginDrag other q).1.diagram.unplaced = _
    rcases s.beginDrag_cases other q with hsame | ⟨_, hbegun, -⟩
    · rw [hsame]
      exact ⟨hdrag, rfl⟩
    · rw [(exists_of_dragFrom_eq_ok hbegun).1] at hdrag
      contradiction
  | dragTo q area =>
    change (s.dragTo q area).1.drag = some drag ∧ (s.dragTo q area).1.diagram.unplaced = _
    rcases s.dragTo_cases q area with hsame | ⟨name, corner, -, hmoved⟩
    · rw [hsame]
      exact ⟨hdrag, rfl⟩
    · rw [hmoved]
      exact ⟨hdrag, s.diagram.unplaced_setPosition name (some corner)⟩
  | endDrag => contradiction

theorem drag_run {operations : List (Operation α)} (hdrag : s.drag = some drag)
    (hends : ∀ operation ∈ operations, operation.endsDrag = false) :
    (s.run operations).drag = some drag ∧
      (s.run operations).diagram.unplaced = s.diagram.unplaced := by
  induction operations generalizing s with
  | nil => exact ⟨hdrag, rfl⟩
  | cons operation rest ih =>
    obtain ⟨hstep, hdiagram⟩ := drag_perform hdrag (hends operation List.mem_cons_self)
    obtain ⟨hrun, hrest⟩ := ih hstep fun o ho => hends o (List.mem_cons_of_mem _ ho)
    exact ⟨hrun, hrest.trans hdiagram⟩

/-- A drag of an entity that began in one session still goes on in another. -/
structure DragsOn (s : Session α) (entity : String) (pointer : Point α) (t : Session α) :
    Prop where
  begun : (s.beginDrag entity pointer).2 = .ok ()
  reached : ∃ operations : List (Operation α),
    (∀ operation ∈ operations, operation.endsDrag = false) ∧
      t = (s.beginDrag entity pointer).1.run operations

/-- While a drag goes on, the drag is the one that began, and the entity has the bounds it had. -/
theorem DragsOn.exists_drag (h : s.DragsOn entity pointer t) : ∃ drag n,
    s.dragFrom entity pointer = .ok drag ∧ s.diagram.node? entity = some n ∧
      t.drag = some drag ∧ drag.entity = entity ∧
      ∃ m, t.diagram.node? entity = some m ∧ m.bounds = n.bounds := by
  obtain ⟨hbegun, operations, hends, rfl⟩ := h
  cases hdrag : s.dragFrom entity pointer with
  | error failure =>
    rw [beginDrag, hdrag] at hbegun
    contradiction
  | ok drag =>
    obtain ⟨-, n, corner, p, hn, -, -, hoffset⟩ := exists_of_dragFrom_eq_ok hdrag
    have hfirst : (s.beginDrag entity pointer).1 = { s with drag := some drag } := by
      rw [beginDrag, hdrag]
    obtain ⟨hrun, hdiagram⟩ := drag_run (s := { s with drag := some drag }) rfl hends
    have hnode := congrArg (Diagram.node? · entity) hdiagram
    simp only [Diagram.node?_unplaced, hn] at hnode
    obtain ⟨m, hm, hmn⟩ := Option.map_eq_some_iff.mp hnode
    rw [hfirst]
    exact ⟨drag, n, rfl, hn, hrun, by rw [hoffset], m, hm, (Node.mk.inj hmn).2.2⟩

/-- Where a move leads that completes. -/
theorem DragsOn.moves (h : s.DragsOn entity pointer t) : ∃ n drag,
    s.diagram.node? entity = some n ∧ s.dragFrom entity pointer = .ok drag ∧
      ∀ q area drawing, (t.dragTo q area).2 = .ok drawing →
        t.Moves entity (draggedCorner drag ⟨q.x / t.scale, q.y / t.scale⟩ area n.size)
          (t.dragTo q area).1 := by
  obtain ⟨drag, n, hbegun, hn, hdrag, rfl, m, hm, hbounds⟩ := h.exists_drag
  refine ⟨n, drag, hn, hbegun, ?_⟩
  intro q area drawing hdone
  obtain ⟨name, corner, htarget, hmoved⟩ := exists_dragTarget_of_dragTo_eq_ok hdone
  obtain ⟨drag', m', p, hdrag', hm', hp, heq⟩ := exists_of_dragTarget_eq_ok htarget
  obtain rfl := Option.some.inj (hdrag.symm.trans hdrag')
  obtain rfl := Option.some.inj (hm.symm.trans hm')
  obtain ⟨rfl, rfl⟩ := Prod.mk.inj heq
  obtain ⟨-, -, rfl⟩ := toDiagram_eq_ok_iff.mp hp
  rw [hmoved, Node.size, ← hbounds]
  exact moves_setPosition hm _

/-- Inside a finite area a box of finite size keeps its corner between the origin and the farthest
corner that leaves room for it; a box that is larger than the area is kept at the origin. -/
theorem keepInside_within (corner : Point Number) {area bounds : Size Number}
    (hwidth : Scalar.isFinite area.width ∧ Scalar.isFinite bounds.width)
    (hheight : Scalar.isFinite area.height ∧ Scalar.isFinite bounds.height) :
    let place := keepInside corner ⟨area.width - bounds.width, area.height - bounds.height⟩
    (Scalar.AtMost 0 place.x ∧
      Scalar.AtMost place.x (Scalar.larger 0 (area.width - bounds.width))) ∧
    Scalar.AtMost 0 place.y ∧
      Scalar.AtMost place.y (Scalar.larger 0 (area.height - bounds.height)) :=
  ⟨Number.clamp_within _ (Number.isDefined_sub hwidth.1 hwidth.2),
    Number.clamp_within _ (Number.isDefined_sub hheight.1 hheight.2)⟩

/-- A move forgets every pointer since the drag began. In exact arithmetic and without an area, what
is under the pointer is as far from the corner of the entity as it was at first, and the first
pointer at the first scale leads back to where the entity stood. Inside a finite area no pointer,
not even an undefined one, leads the box out. -/
theorem dragTo_keeps_grip [Layered.ComponentLayout Rat] [Layered.ComponentLayout Number] :
    (∀ {α : Type} [Scalar α] [Layered.ComponentLayout α] {s t : Session α} {entity : String}
        {pointer : Point α},
      s.DragsOn entity pointer t → ∃ n drag,
        s.diagram.node? entity = some n ∧ s.dragFrom entity pointer = .ok drag ∧
        ∀ q area drawing, (t.dragTo q area).2 = .ok drawing →
          t.Moves entity (draggedCorner drag ⟨q.x / t.scale, q.y / t.scale⟩ area n.size)
            (t.dragTo q area).1) ∧
    (∀ {s t : Session Rat} {entity : String} {pointer : Point Rat},
      s.DragsOn entity pointer t → ∃ n corner drag,
        s.diagram.node? entity = some n ∧ n.position = some corner ∧
        s.dragFrom entity pointer = .ok drag ∧
        ∀ q drawing, (t.dragTo q none).2 = .ok drawing → ∃ place,
          t.Moves entity place (t.dragTo q none).1 ∧
          q.x / t.scale - place.x = drag.offset.x ∧ q.y / t.scale - place.y = drag.offset.y ∧
          (t.scale = s.scale → q = pointer → place = corner ∧
            ∀ m, t.diagram.node? entity = some m → m.position = some corner →
              (t.dragTo q none).1 = t)) ∧
    (∀ {s t : Session Number} {entity : String} {pointer : Point Number},
      s.DragsOn entity pointer t → ∃ n, s.diagram.node? entity = some n ∧
        ∀ q (area : Size Number) drawing, (t.dragTo q (some area)).2 = .ok drawing →
          Scalar.isFinite area.width ∧ Scalar.isFinite n.size.width →
          Scalar.isFinite area.height ∧ Scalar.isFinite n.size.height →
          ∃ place, t.Moves entity place (t.dragTo q (some area)).1 ∧
            (Scalar.AtMost 0 place.x ∧
              Scalar.AtMost place.x (Scalar.larger 0 (area.width - n.size.width))) ∧
            Scalar.AtMost 0 place.y ∧
              Scalar.AtMost place.y (Scalar.larger 0 (area.height - n.size.height))) := by
  refine ⟨fun h => h.moves, ?_, ?_⟩
  · intro s t entity pointer h
    obtain ⟨n, drag, hn, hdrag, hmoves⟩ := h.moves
    obtain ⟨-, n', corner, p, hn', hcorner, hp, hoffset⟩ := exists_of_dragFrom_eq_ok hdrag
    obtain rfl := Option.some.inj (hn.symm.trans hn')
    obtain ⟨-, -, rfl⟩ := toDiagram_eq_ok_iff.mp hp
    refine ⟨n, corner, drag, hn, hcorner, hdrag, ?_⟩
    intro q drawing hdone
    have hmoved := hmoves q none drawing hdone
    refine ⟨_, hmoved, sub_sub_cancel _ _, sub_sub_cancel _ _, ?_⟩
    intro hscale hq
    have hplace : draggedCorner drag ⟨q.x / t.scale, q.y / t.scale⟩ none n.size = corner := by
      rw [hq, hscale, hoffset]
      simp [draggedCorner]
    refine ⟨hplace, ?_⟩
    intro m hm hposition
    exact (hplace ▸ hmoved).eq_of_position hm hposition
  · intro s t entity pointer h
    obtain ⟨n, drag, hn, -, hmoves⟩ := h.moves
    refine ⟨n, hn, ?_⟩
    intro q area drawing hdone hwidth hheight
    exact ⟨_, hmoves q (some area) drawing hdone, keepInside_within _ hwidth hheight⟩

/-- Pulled away, laid out anew and taken back, an entity stands where it stood; and a box that is
larger than the area stays at the origin under an undefined pointer. -/
theorem dragTo_keeps_grip_of_zoom :
    let s : Session Rat :=
      create ⟨[⟨⟨"A", [], []⟩, some ⟨3, 4⟩, some ⟨140, 54⟩⟩], [], []⟩ .default
    let t := (s.beginDrag "A" ⟨5, 9⟩).1.run
      [.zoomIn, .dragTo ⟨100, 7⟩ none, .autoLayout, .resetZoom]
    let u : Session Number :=
      create ⟨[⟨⟨"A", [], []⟩, some ⟨3, 4⟩, some ⟨140, 54⟩⟩], [], []⟩ .default
    let v := (u.beginDrag "A" ⟨5, 9⟩).1.run [.zoomOut, .load "Entity", .zoomIn]
    let outside : Point Number := ⟨.double (0 / 0), 1000⟩
    s.DragsOn "A" ⟨5, 9⟩ t ∧ t.Moves "A" ⟨3, 4⟩ (t.dragTo ⟨5, 9⟩ none).1 ∧
      u.DragsOn "A" ⟨5, 9⟩ v ∧ ∃ place, v.Moves "A" place (v.dragTo outside (some ⟨100, 600⟩)).1 ∧
        Scalar.AtMost 0 place.x ∧ Scalar.AtMost place.y 546 := by
  intro s t u v outside
  have ht : s.DragsOn "A" ⟨5, 9⟩ t := ⟨by decide +kernel, _, by decide +kernel, rfl⟩
  have hv : u.DragsOn "A" ⟨5, 9⟩ v := ⟨by decide +kernel, _, by decide +kernel, rfl⟩
  obtain ⟨drawing, hback⟩ : ∃ drawing, (t.dragTo ⟨5, 9⟩ none).2 = .ok drawing :=
    exists_ok_of_isOk (by decide +kernel)
  obtain ⟨drawing', houtside⟩ : ∃ drawing, (v.dragTo outside (some ⟨100, 600⟩)).2 = .ok drawing :=
    exists_ok_of_isOk (by decide +kernel)
  obtain ⟨-, hexact, hwithin⟩ := dragTo_keeps_grip
  obtain ⟨n, corner, drag, hn, hcorner, -, hmoves⟩ := hexact ht
  obtain rfl := Option.some.inj hn
  obtain rfl := Option.some.inj hcorner
  obtain ⟨place, hmoved, -, -, hplace⟩ := hmoves _ drawing hback
  obtain ⟨rfl, -⟩ := hplace (by decide +kernel) rfl
  obtain ⟨m, hm, hmoves'⟩ := hwithin hv
  obtain rfl := Option.some.inj hm
  obtain ⟨place, hmoved', ⟨hnear, -⟩, -, hfar⟩ :=
    hmoves' _ _ drawing' houtside (by decide +kernel) (by decide +kernel)
  exact ⟨ht, hmoved, hv, place, hmoved', hnear, hfar⟩

end Session

end EntityDiagram
