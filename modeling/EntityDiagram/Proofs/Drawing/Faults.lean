import EntityDiagram.Proofs.Drawing.Isolation

/-! When a diagram has a drawing. A part that cannot be computed is reported and the rest is drawn,
unless its arithmetic has no answer: a quotient whose divisor is zero, the whole part of a number
that is not finite, or a number that is too large. Every step of a part is asked for the numbers on
which it has an answer. -/
namespace EntityDiagram

variable {α β γ : Type}

/-- A computation with a result, or with an error to report. -/
def Answers (x : Except (Failure α) β) : Prop := ∀ fault, x ≠ .error (.arithmetic fault)

@[simp] theorem answers_ok (b : β) : Answers (.ok b : Except (Failure α) β) := by
  intro fault h
  contradiction

@[simp] theorem answers_part (e : PartError α) :
    Answers (.error (.part e) : Except (Failure α) β) := by
  intro fault h
  cases h

theorem answers_bind_iff {x : Except (Failure α) β} {f : β → Except (Failure α) γ} :
    Answers (x >>= f) ↔ Answers x ∧ ∀ b, x = .ok b → Answers (f b) := by
  cases x with
  | error failure => simp [Answers, bind, Except.bind]
  | ok b => simp [bind, Except.bind]

theorem answers_map_iff {x : Except (Failure α) β} {f : β → γ} :
    Answers (x.map f) ↔ Answers x := by
  cases x with
  | error failure => simp [Answers, Except.map]
  | ok b => simp [Except.map]

theorem exists_ofPart_eq_ok_iff {x : Except (Failure α) (List (Primitive α))} :
    (∃ block, Drawing.ofPart x = .ok block) ↔ Answers x := by
  rcases x with (e | fault) | primitives
  · simp [Drawing.ofPart]
  · simp [Drawing.ofPart, Answers]
  · simp [Drawing.ofPart]

/-- Parts make a drawing when each of them has a block. -/
theorem exists_collect_eq_ok_iff {parts : List (Except ArithmeticFault (Drawing α))} :
    (∃ drawing, Drawing.collect parts = .ok drawing) ↔
      ∀ part ∈ parts, ∃ block, part = .ok block := by
  constructor
  · rintro ⟨drawing, h⟩ part hpart
    obtain ⟨blocks, rfl, -⟩ := Drawing.collect_eq_ok_iff.mp h
    obtain ⟨block, -, rfl⟩ := List.mem_map.mp hpart
    exact ⟨block, rfl⟩
  · intro h
    induction parts with
    | nil => exact ⟨_, rfl⟩
    | cons part rest ih =>
      obtain ⟨block, rfl⟩ := h part List.mem_cons_self
      obtain ⟨drawing, hdrawing⟩ := ih fun part hpart => h part (List.mem_cons_of_mem _ hpart)
      exact ⟨block ++ drawing, bind_eq_ok_iff.mpr ⟨block, rfl, bind_eq_ok_iff.mpr
        ⟨drawing, hdrawing, rfl⟩⟩⟩

theorem answers_rect (n : Node α) : Answers n.rect := by
  unfold Node.rect
  split <;> simp

variable [Scalar α]

/-- Numbers that can be asked whether they are finite: none is too large, or all of them are. -/
def Checkable (numbers : List α) : Prop :=
  (∀ a ∈ numbers, Scalar.isFinite a = true) ∨ ∀ a ∈ numbers, Scalar.fits a = true

theorem checkFinite_eq_ok_iff {subject : Option String} {numbers : List α} :
    checkFinite subject numbers = .ok () ↔ ∀ a ∈ numbers, Scalar.isFinite a = true := by
  rw [← List.all_eq_true]
  unfold checkFinite
  split
  · simp [*]
  · split <;> simp [*]

theorem answers_checkFinite_iff {subject : Option String} {numbers : List α} :
    Answers (checkFinite subject numbers) ↔ Checkable numbers := by
  rw [Checkable, ← List.all_eq_true, ← List.all_eq_true]
  unfold checkFinite
  cases numbers.all Scalar.isFinite with
  | true => simp
  | false => cases numbers.all Scalar.fits <;> simp [Failure.geometry, Answers]

/-- All four numbers of a rectangle are finite. -/
def Rect.IsFinite (r : Rect α) : Prop := ∀ a ∈ r.numbers, Scalar.isFinite a = true

theorem answers_checkFinite_bind_iff {subject : Option String} {numbers : List α}
    {f : Unit → Except (Failure α) β} : Answers (checkFinite subject numbers >>= f) ↔
      Checkable numbers ∧ ((∀ a ∈ numbers, Scalar.isFinite a = true) → Answers (f ())) := by
  rw [answers_bind_iff, answers_checkFinite_iff]
  refine and_congr_right fun _ => ?_
  rw [← @checkFinite_eq_ok_iff α _ subject numbers]
  exact ⟨fun h => h (), fun h _ => h⟩

theorem answers_quotientOf_iff {a b : α} : Answers (quotientOf a b) ↔
    (Scalar.fits a = true ∧ Scalar.fits b = true) ∧ (b == 0) = false := by
  unfold quotientOf Scalar.quotient
  cases Scalar.fits a <;> cases Scalar.fits b <;> cases b == 0 <;>
    simp [Answers, Except.mapError]

theorem exists_roundHalfUp_eq_ok_iff {a : α} : (∃ b, Scalar.roundHalfUp a = .ok b) ↔
    Scalar.fits a = true ∧ Scalar.isFinite (a + 1 / 2) = true := by
  unfold Scalar.roundHalfUp Scalar.isFinite
  cases Scalar.fits a <;> cases Scalar.reading (a + 1 / 2) <;>
    simp [Reading.floor, Reading.isFinite, Except.map]

/-- Rounding goes on with a whole number when what is rounded is finite. -/
theorem answers_roundedHalfUp_bind_iff {a : α} {f : α → Except (Failure α) β} :
    Answers (roundedHalfUp a >>= f) ↔ (∃ b, Scalar.roundHalfUp a = .ok b) ∧
      ∀ b, Scalar.roundHalfUp a = .ok b → Answers (f b) := by
  rw [answers_bind_iff]
  unfold roundedHalfUp
  cases Scalar.roundHalfUp a <;> simp [Answers, Except.mapError]

/-- The greater of two absolute differences, which the other is divided by. -/
def greaterDifference (dx dy : α) : α := if isHorizontal dx dy then Scalar.abs dx else Scalar.abs dy

theorem answers_edgePoint_iff {r : Rect α} {dx dy : α}
    (hfits : ∀ a ∈ [dx, dy, Scalar.abs dx, Scalar.abs dy], Scalar.fits a = true) :
    Answers (r.edgePoint dx dy) ↔ (greaterDifference dx dy == 0) = false := by
  simp only [List.forall_mem_cons] at hfits
  obtain ⟨hx, hy, habsx, habsy, -⟩ := hfits
  unfold Rect.edgePoint greaterDifference
  simp only
  split
  · rw [answers_map_iff, answers_quotientOf_iff, and_iff_right ⟨hy, habsx⟩]
  · rw [answers_map_iff, answers_quotientOf_iff, and_iff_right ⟨hx, habsy⟩]

theorem answers_connectionPoint_iff {source target : Rect α} {subject : Option String} :
    let dx := target.center.x - source.center.x
    let dy := target.center.y - source.center.y
    Answers (connectionPoint source target subject) ↔ Checkable source.numbers ∧
      (source.IsFinite → Checkable target.numbers ∧ (target.IsFinite →
        (dx == 0 && dy == 0) = false → Answers (source.edgePoint dx dy) ∧
          ∀ edge, source.edgePoint dx dy = .ok edge →
            Checkable [(inset dx dy edge).x, (inset dx dy edge).y])) := by
  intro dx dy
  unfold connectionPoint
  rw [answers_checkFinite_bind_iff]
  refine and_congr_right fun _ => imp_congr_right fun _ => ?_
  rw [answers_checkFinite_bind_iff]
  refine and_congr_right fun _ => imp_congr_right fun _ => ?_
  change Answers (if dx == 0 && dy == 0 then _ else source.edgePoint dx dy >>= _) ↔ _
  cases hshared : dx == 0 && dy == 0 with
  | true => simp [Failure.geometry]
  | false =>
    rw [if_neg Bool.false_ne_true, answers_bind_iff]
    simp only [answers_checkFinite_bind_iff, forall_const]
    refine and_congr_right fun _ => forall_congr' fun edge => imp_congr_right fun _ => ?_
    exact and_iff_left fun _ => answers_ok _

/-- The end of a connector is found between finite rectangles, and is finite itself. -/
theorem isFinite_of_connectionPoint_eq_ok {source target : Rect α} {subject : Option String}
    {p : Point α} (h : connectionPoint source target subject = .ok p) :
    source.IsFinite ∧ target.IsFinite ∧
      Scalar.isFinite p.x = true ∧ Scalar.isFinite p.y = true := by
  unfold connectionPoint at h
  obtain ⟨⟨⟩, hsource, h⟩ := bind_eq_ok_iff.mp h
  obtain ⟨⟨⟩, htarget, h⟩ := bind_eq_ok_iff.mp h
  refine ⟨checkFinite_eq_ok_iff.mp hsource, checkFinite_eq_ok_iff.mp htarget, ?_⟩
  simp only at h
  split at h
  · contradiction
  · obtain ⟨edge, -, h⟩ := bind_eq_ok_iff.mp h
    obtain ⟨⟨⟩, hpoint, hp⟩ := bind_eq_ok_iff.mp h
    obtain rfl := Except.ok.inj hp
    simpa using checkFinite_eq_ok_iff.mp hpoint

theorem answers_route_of_checkable {start finish : Point α} (subject : Option String)
    (h : ∀ p ∈ (Route.between start finish).points ++ [(Route.between start finish).midpoint],
      Checkable [p.x, p.y]) : Answers (route start finish subject) := by
  have hpoints (points : List (Point α)) (hall : ∀ p ∈ points, Checkable [p.x, p.y]) :
      Answers (points.forM fun p => checkFinite subject [p.x, p.y]) := by
    induction points with
    | nil => exact answers_ok ()
    | cons p rest ih =>
      rw [List.forM_eq_forM, List.forM_cons, answers_checkFinite_bind_iff]
      refine ⟨hall p List.mem_cons_self, fun _ => ?_⟩
      exact ih fun q hq => hall q (List.mem_cons_of_mem _ hq)
  unfold route
  exact answers_bind_iff.mpr ⟨hpoints _ h, fun _ _ => answers_ok _⟩

theorem answers_relationshipSymbols_iff {target source : Point α} {c : Cardinality}
    {identifying : Bool} {subject : Option String} :
    Answers (relationshipSymbols target source c identifying subject) ↔
      ((target.x - source.x == 0 && target.y - source.y == 0) = false →
        Scalar.fits (alongDifference target source) = true) := by
  unfold relationshipSymbols
  cases target.x - source.x == 0 && target.y - source.y == 0 with
  | true => simp [Failure.geometry]
  | false => cases Scalar.fits (alongDifference target source) <;> simp [Answers]

theorem answers_below_iff {generic : Rect α} {complete : Bool}
    {discriminator subject : Option String} :
    Answers (Hub.below generic complete discriminator subject) ↔ Checkable generic.numbers ∧
      (generic.IsFinite → (∃ x, Scalar.roundHalfUp (generic.x + generic.width / 2) = .ok x) ∧
        ∃ bottom, Scalar.roundHalfUp generic.bottom = .ok bottom) := by
  unfold Hub.below
  rw [answers_checkFinite_bind_iff]
  refine and_congr_right fun _ => imp_congr_right fun _ => ?_
  rw [answers_roundedHalfUp_bind_iff]
  refine and_congr_right fun ⟨x, hx⟩ => ?_
  constructor
  · intro h
    exact (answers_roundedHalfUp_bind_iff.mp (h x hx)).1
  · intro h b _
    exact answers_roundedHalfUp_bind_iff.mpr ⟨h, fun _ _ => answers_ok _⟩

theorem answers_categoryPoints_iff {anchor : Point α} {category : Rect α}
    {subject : Option String} :
    Answers (categoryPoints anchor category subject) ↔ Checkable category.numbers ∧
      (category.IsFinite → (∃ x, Scalar.roundHalfUp (category.x + category.width / 2) = .ok x) ∧
        (∃ y, Scalar.roundHalfUp category.y = .ok y) ∧
        ∀ y, Scalar.roundHalfUp category.y = .ok y →
          ∃ middle, Scalar.roundHalfUp (anchor.y + (y - anchor.y) / 2) = .ok middle) := by
  unfold categoryPoints
  rw [answers_checkFinite_bind_iff]
  refine and_congr_right fun _ => imp_congr_right fun _ => ?_
  rw [answers_roundedHalfUp_bind_iff]
  refine and_congr_right fun ⟨x, hx⟩ => ?_
  have hinner (x : α) : Answers (do
        let y ← roundedHalfUp category.y
        let middle ← roundedHalfUp (anchor.y + (y - anchor.y) / 2)
        return [anchor, ⟨anchor.x, middle⟩, ⟨x, middle⟩, ⟨x, y⟩]) ↔
      (∃ y, Scalar.roundHalfUp category.y = .ok y) ∧
      ∀ y, Scalar.roundHalfUp category.y = .ok y →
        ∃ middle, Scalar.roundHalfUp (anchor.y + (y - anchor.y) / 2) = .ok middle := by
    rw [answers_roundedHalfUp_bind_iff]
    refine and_congr_right fun _ => forall_congr' fun y => imp_congr_right fun _ => ?_
    rw [answers_roundedHalfUp_bind_iff]
    exact and_iff_left fun _ _ => answers_ok _
  constructor
  · intro h
    exact (hinner x).mp (h x hx)
  · intro h x _
    exact (hinner x).mpr h

namespace Diagram

variable {d : Diagram α}

omit [Scalar α] in
theorem answers_requireNode (name part : String) : Answers (d.requireNode name part) := by
  unfold requireNode
  split <;> simp

omit [Scalar α] in
theorem answers_requireRect_bind_iff {name part : String} {f : Rect α → Except (Failure α) β} :
    Answers (d.requireNode name part >>= fun n => n.rect >>= f) ↔
      ∀ rect, d.HasRect name rect → Answers (f rect) := by
  rw [answers_bind_iff, and_iff_right (answers_requireNode name part)]
  constructor
  · rintro h rect ⟨n, hn, hrect⟩
    exact (answers_bind_iff.mp (h n (requireNode_eq_ok_iff.mpr hn))).2 rect hrect
  · intro h n hn
    refine answers_bind_iff.mpr ⟨answers_rect n, ?_⟩
    intro rect hrect
    exact h rect ⟨n, requireNode_eq_ok_iff.mp hn, hrect⟩

omit [Scalar α] in
theorem answers_cardinality (d : Diagram α) (r : Relationship) :
    Answers
      ((d.schema.cardinality r).mapError fun e => (.part (.inconsistency e) : Failure α)) := by
  cases d.schema.cardinality r <;> simp [Except.mapError]

/-- A relationship is drawn or reported unless one of its two ends, the route between them or the
symbols there cannot be computed. -/
theorem answers_relationshipPart_iff {r : Relationship} :
    Answers (d.relationshipPart r) ↔ ∀ source target c, d.HasRect r.source.entity source →
      d.HasRect r.target.entity target → d.schema.cardinality r = .ok c →
        let subject := some (relationshipSubject r)
        Answers (connectionPoint source target subject) ∧
        ∀ start, connectionPoint source target subject = .ok start →
          Answers (connectionPoint target source subject) ∧
          ∀ finish, connectionPoint target source subject = .ok finish →
            Answers (route start finish subject) ∧
            ∀ line, route start finish subject = .ok line →
              Answers (relationshipSymbols finish start c (d.schema.isIdentifying r) subject) := by
  unfold relationshipPart
  constructor
  · rintro h source target c ⟨n, hn, hsource⟩ ⟨m, hm, htarget⟩ hc
    have h := (answers_bind_iff.mp h).2 n (requireNode_eq_ok_iff.mpr hn)
    have h := (answers_bind_iff.mp h).2 m (requireNode_eq_ok_iff.mpr hm)
    have h := (answers_bind_iff.mp h).2 c (mapError_eq_ok_iff.mpr hc)
    have h := (answers_bind_iff.mp h).2 source hsource
    obtain ⟨hstart, h⟩ := answers_bind_iff.mp ((answers_bind_iff.mp h).2 target htarget)
    refine ⟨hstart, fun start hok => ?_⟩
    obtain ⟨hfinish, h⟩ := answers_bind_iff.mp (h start hok)
    refine ⟨hfinish, fun finish hok => ?_⟩
    obtain ⟨hroute, h⟩ := answers_bind_iff.mp (h finish hok)
    exact ⟨hroute, fun line hline => (answers_bind_iff.mp (h line hline)).1⟩
  · intro h
    refine answers_bind_iff.mpr ⟨answers_requireNode _ _, fun n hn => ?_⟩
    refine answers_bind_iff.mpr ⟨answers_requireNode _ _, fun m hm => ?_⟩
    refine answers_bind_iff.mpr ⟨answers_cardinality d r, fun c hc => ?_⟩
    refine answers_bind_iff.mpr ⟨answers_rect n, fun source hsource => ?_⟩
    refine answers_bind_iff.mpr ⟨answers_rect m, fun target htarget => ?_⟩
    obtain ⟨hstart, h⟩ := h source target c ⟨n, requireNode_eq_ok_iff.mp hn, hsource⟩
      ⟨m, requireNode_eq_ok_iff.mp hm, htarget⟩ (mapError_eq_ok_iff.mp hc)
    refine answers_bind_iff.mpr ⟨hstart, fun start hok => ?_⟩
    obtain ⟨hfinish, h⟩ := h start hok
    refine answers_bind_iff.mpr ⟨hfinish, fun finish hok => ?_⟩
    obtain ⟨hroute, h⟩ := h finish hok
    refine answers_bind_iff.mpr ⟨hroute, fun line hline => ?_⟩
    exact answers_bind_iff.mpr ⟨h line hline, fun _ _ => answers_ok _⟩

theorem answers_hubPart_iff {g : Generalization} :
    Answers (d.hubPart g) ↔ ∀ generic, d.HasRect g.generic generic → Checkable generic.numbers ∧
      (generic.IsFinite → (∃ x, Scalar.roundHalfUp (generic.x + generic.width / 2) = .ok x) ∧
        ∃ bottom, Scalar.roundHalfUp generic.bottom = .ok bottom) := by
  unfold hubPart
  simp only [answers_requireRect_bind_iff, answers_below_iff]

theorem answers_connectorPart_iff {g : Generalization} {hub : Hub α} {name : String} :
    Answers (d.connectorPart g hub name) ↔ ∀ category, d.HasRect name category →
      Checkable category.numbers ∧ (category.IsFinite →
        (∃ x, Scalar.roundHalfUp (category.x + category.width / 2) = .ok x) ∧
        (∃ y, Scalar.roundHalfUp category.y = .ok y) ∧
        ∀ y, Scalar.roundHalfUp category.y = .ok y →
          ∃ middle, Scalar.roundHalfUp (hub.anchor.y + (y - hub.anchor.y) / 2) = .ok middle) := by
  unfold connectorPart categoryConnector
  simp only [answers_requireRect_bind_iff]
  refine forall_congr' fun category => imp_congr_right fun _ => ?_
  rw [answers_bind_iff, answers_map_iff, answers_categoryPoints_iff]
  exact and_iff_left fun _ _ => answers_ok _

theorem exists_generalizationDrawing_eq_ok_iff {g : Generalization} :
    (∃ block, d.generalizationDrawing g = .ok block) ↔ Answers (d.hubPart g) ∧
      ∀ hub, d.hubPart g = .ok hub →
        ∀ name ∈ g.categories, Answers (d.connectorPart g hub name) := by
  unfold generalizationDrawing
  cases d.hubPart g with
  | error failure =>
    cases failure with
    | part e => simp [Drawing.ofPart]
    | arithmetic fault => simp [Drawing.ofPart, Answers]
  | ok hub =>
    simp [exists_collect_eq_ok_iff, exists_ofPart_eq_ok_iff]

/-- A diagram has a drawing when each of its relationships, junctions and connectors is drawn or
reported. -/
theorem exists_draw_eq_ok_iff : (∃ drawing, d.draw = .ok drawing) ↔
    (∀ r ∈ d.relationships, Answers (d.relationshipPart r)) ∧
      ∀ g ∈ d.generalizations, Answers (d.hubPart g) ∧ ∀ hub, d.hubPart g = .ok hub →
        ∀ name ∈ g.categories, Answers (d.connectorPart g hub name) := by
  rw [draw, exists_collect_eq_ok_iff]
  simp only [List.forall_mem_append, List.forall_mem_map, exists_ofPart_eq_ok_iff,
    exists_generalizationDrawing_eq_ok_iff]
  rw [and_assoc]
  exact and_iff_right fun n _ => answers_map_iff.mpr (answers_rect n)

end Diagram

end EntityDiagram
