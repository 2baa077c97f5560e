import EntityDiagram.Proofs.Drawing.Divisions
import EntityDiagram.Proofs.Scalar.Exact
import EntityDiagram.Proofs.Scalar.Rounding
import EntityDiagram.Proofs.Scalar.Sums
import EntityDiagram.Proofs.Session.Failures

/-! The scale of a session. A step of zooming is kept from passing one limit only; it keeps the
other because it never leads the wrong way, not even after rounding. So the scale stays between both
limits over every run and no pointer is divided by zero; all that can be wrong with a pointer is
that it is too large. Exact steps that are not cut short undo each other. -/
namespace EntityDiagram

/-- The scale after an operation. -/
def Operation.rescale {α : Type} [Scalar α] : Operation α → α → α
  | .zoomIn, scale => Scalar.smaller (scale * Session.zoomStep) Session.greatestScale
  | .zoomOut, scale => Scalar.larger (scale / Session.zoomStep) Session.leastScale
  | .resetZoom, _ => 1
  | _, scale => scale

namespace Session

section Scale

variable {α : Type} [Scalar α] [Layered.ComponentLayout α] {s : Session α}

theorem scale_perform (s : Session α) (operation : Operation α) :
    (s.perform operation).1.scale = operation.rescale s.scale := by
  cases operation with
  | load source =>
    change (s.load source).1.scale = s.scale
    rcases s.load_cases source with ⟨error, -, -, hsame⟩ | ⟨document, -, -, hopen⟩
    · rw [hsame]
    · rw [hopen, openSchema, fst_autoLayout]
  | autoLayout =>
    change s.autoLayout.1.scale = s.scale
    rw [fst_autoLayout]
  | beginDrag entity pointer =>
    change (s.beginDrag entity pointer).1.scale = s.scale
    rcases s.beginDrag_cases entity pointer with hsame | ⟨drag, -, hbegun⟩
    · rw [hsame]
    · rw [hbegun]
  | dragTo pointer area =>
    change (s.dragTo pointer area).1.scale = s.scale
    rcases s.dragTo_cases pointer area with hsame | ⟨entity, corner, -, hdragged⟩
    · rw [hsame]
    · rw [hdragged]
  | _ => rfl

/-- Only zooming changes the scale. -/
theorem scale_perform_of_not_mem {operation : Operation α}
    (h : operation ∉ [.zoomIn, .zoomOut, .resetZoom]) :
    (s.perform operation).1.scale = s.scale := by
  rw [scale_perform]
  cases operation with
  | zoomIn | zoomOut | resetZoom => simp at h
  | _ => rfl

end Scale

variable {α : Type} [Scalar α]

/-- Between the least scale and the greatest. -/
def InZoomRange (scale : α) : Prop :=
  Scalar.AtMost leastScale scale ∧ Scalar.AtMost scale greatestScale

variable (α) in
/-- Numbers among which zooming stays in range, and is never done at zero. -/
structure ZoomsInRange : Prop where
  one : InZoomRange (1 : α)
  zoomIn : ∀ {scale : α}, InZoomRange scale → InZoomRange (Operation.zoomIn.rescale scale)
  zoomOut : ∀ {scale : α}, InZoomRange scale → InZoomRange (Operation.zoomOut.rescale scale)
  ne_zero : ∀ {scale : α}, InZoomRange scale → (scale == 0) = false

namespace ZoomsInRange

variable [Layered.ComponentLayout α] {s : Session α} (numbers : ZoomsInRange α)
include numbers

theorem perform (h : InZoomRange s.scale) (operation : Operation α) :
    InZoomRange (s.perform operation).1.scale := by
  rw [scale_perform]
  cases operation with
  | zoomIn => exact numbers.zoomIn h
  | zoomOut => exact numbers.zoomOut h
  | resetZoom => exact numbers.one
  | _ => exact h

theorem run (h : InZoomRange s.scale) (operations : List (Operation α)) :
    InZoomRange (s.run operations).scale := by
  induction operations generalizing s with
  | nil => exact h
  | cons operation rest ih => exact ih (numbers.perform h operation)

/-- The scale of a session that began afresh. -/
theorem run_create (diagram : Diagram α) (options : Options) (operations : List (Operation α)) :
    InZoomRange ((create diagram options).run operations).scale :=
  numbers.run numbers.one operations

end ZoomsInRange

section Pointers

variable {s : Session α} {fault : ArithmeticFault}

/-- At a scale that is not zero a point of the screen is at most too far away. -/
theorem eq_tooLarge_of_toDiagram_eq_error (h : (s.scale == 0) = false) {screen : Point α}
    (hfault : s.toDiagram screen = .error fault) : fault = .tooLarge := by
  have hquotient (a : α) (hfault : Scalar.quotient a s.scale = .error fault) :
      fault = .tooLarge := by
    unfold Scalar.quotient at hfault
    rw [h] at hfault
    split at hfault
    · exact (Except.error.inj hfault).symm
    · contradiction
  rcases bind_eq_error_iff.mp hfault with hx | ⟨x, -, hfault⟩
  · exact hquotient _ hx
  · rcases bind_eq_error_iff.mp hfault with hy | ⟨y, -, hfault⟩
    · exact hquotient _ hy
    · contradiction

omit s in
theorem eq_tooLarge_of_difference_eq_error {a b : α}
    (hfault : Scalar.difference a b = .error fault) : fault = .tooLarge := by
  unfold Scalar.difference at hfault
  split at hfault
  · contradiction
  · exact (Except.error.inj hfault).symm

theorem eq_tooLarge_of_offsetFrom_eq_error (h : (s.scale == 0) = false) {origin pointer : Point α}
    (hfault : s.offsetFrom origin pointer = .error fault) : fault = .tooLarge := by
  rcases bind_eq_error_iff.mp hfault with hp | ⟨p, -, hfault⟩
  · exact eq_tooLarge_of_toDiagram_eq_error h hp
  · rcases bind_eq_error_iff.mp hfault with hx | ⟨x, -, hfault⟩
    · exact eq_tooLarge_of_difference_eq_error hx
    · rcases bind_eq_error_iff.mp hfault with hy | ⟨y, -, hfault⟩
      · exact eq_tooLarge_of_difference_eq_error hy
      · contradiction

omit s in
theorem eq_tooLarge_of_room_eq_error {area bounds : Size α}
    (hfault : room area bounds = .error fault) : fault = .tooLarge := by
  rcases bind_eq_error_iff.mp hfault with hwidth | ⟨width, -, hfault⟩
  · exact eq_tooLarge_of_difference_eq_error hwidth
  · rcases bind_eq_error_iff.mp hfault with hheight | ⟨height, -, hfault⟩
    · exact eq_tooLarge_of_difference_eq_error hheight
    · contradiction

omit s in
theorem mapError_eq_arithmetic_iff {β : Type} {x : Except ArithmeticFault β} :
    x.mapError SessionFailure.arithmetic = .error (.arithmetic fault) ↔ x = .error fault := by
  cases x <;> simp [Except.mapError]

theorem eq_tooLarge_of_dragTarget_eq_error (h : (s.scale == 0) = false) {pointer : Point α}
    {area : Option (Size α)} (hfault : s.dragTarget pointer area = .error (.arithmetic fault)) :
    fault = .tooLarge := by
  unfold dragTarget at hfault
  split at hfault
  · cases hfault
  · split at hfault
    · cases hfault
    · rcases bind_eq_error_iff.mp hfault with hcorner | ⟨corner, -, hfault⟩
      · exact eq_tooLarge_of_offsetFrom_eq_error h (mapError_eq_arithmetic_iff.mp hcorner)
      · split at hfault
        · contradiction
        · rcases bind_eq_error_iff.mp hfault with hroom | ⟨space, -, hfault⟩
          · exact eq_tooLarge_of_room_eq_error (mapError_eq_arithmetic_iff.mp hroom)
          · contradiction

/-- A move fails with arithmetic before the entity is moved, or in the new drawing. -/
theorem dragTo_eq_arithmetic_iff {pointer : Point α} {area : Option (Size α)} :
    (s.dragTo pointer area).2 = .error (.arithmetic fault) ↔
      s.dragTarget pointer area = .error (.arithmetic fault) ∨ ∃ entity corner,
        s.dragTarget pointer area = .ok (entity, corner) ∧
          (s.diagram.setPosition entity (some corner)).draw = .error fault := by
  unfold dragTo
  cases htarget : s.dragTarget pointer area with
  | error failure => simp
  | ok target =>
    obtain ⟨entity, corner⟩ := target
    simp [redraw, mapError_eq_arithmetic_iff]

theorem beginDrag_eq_error_iff {entity : String} {pointer : Point α} {failure : SessionFailure} :
    (s.beginDrag entity pointer).2 = .error failure ↔
      s.dragFrom entity pointer = .error failure := by
  unfold beginDrag
  cases s.dragFrom entity pointer <;> simp

/-- A drag fails with arithmetic only when it could begin. -/
theorem dragFrom_eq_arithmetic_iff {entity : String} {pointer : Point α} :
    s.dragFrom entity pointer = .error (.arithmetic fault) ↔ s.drag = none ∧ ∃ n corner,
      s.diagram.node? entity = some n ∧ n.position = some corner ∧
        s.offsetFrom corner pointer = .error fault := by
  unfold dragFrom
  cases s.drag with
  | some drag => simp
  | none =>
    cases s.diagram.node? entity with
    | none => simp
    | some n =>
      cases hposition : n.position with
      | none => simp [hposition]
      | some corner =>
        simp only [hposition]
        constructor
        · intro h
          rcases bind_eq_error_iff.mp h with hoffset | ⟨offset, -, h⟩
          · exact ⟨trivial, n, corner, rfl, hposition, mapError_eq_arithmetic_iff.mp hoffset⟩
          · contradiction
        · rintro ⟨-, m, place, hm, hplace, hoffset⟩
          obtain rfl := Option.some.inj hm
          obtain rfl := Option.some.inj (hposition.symm.trans hplace)
          exact bind_eq_error_iff.mpr (.inl (mapError_eq_arithmetic_iff.mpr hoffset))

end Pointers

section Exact

theorem atMost_exact_iff {a b : Rat} : Scalar.AtMost a b ↔ a ≤ b := by
  rw [Scalar.AtMost, beq_iff_eq, ← le_iff_lt_or_eq]

theorem zoomStep_exact : (zoomStep : Rat) = 6 / 5 := by
  change (12 / 10 : Rat) = 6 / 5
  norm_num

theorem leastScale_exact : (leastScale : Rat) = 3 / 10 := rfl

theorem greatestScale_exact : (greatestScale : Rat) = 3 := rfl

theorem inZoomRange_exact_iff {scale : Rat} : InZoomRange scale ↔ 3 / 10 ≤ scale ∧ scale ≤ 3 := by
  rw [InZoomRange, atMost_exact_iff, atMost_exact_iff, leastScale_exact, greatestScale_exact]

theorem zoomIn_rescale_exact (scale : Rat) :
    (Operation.zoomIn).rescale scale = min (scale * (6 / 5)) 3 := by
  rw [Operation.rescale, Scalar.smaller_exact, zoomStep_exact, greatestScale_exact]

theorem zoomOut_rescale_exact (scale : Rat) :
    (Operation.zoomOut).rescale scale = max (scale / (6 / 5)) (3 / 10) := by
  rw [Operation.rescale, Scalar.larger_exact, zoomStep_exact, leastScale_exact]

theorem zoomsInRange_exact : ZoomsInRange Rat where
  one := inZoomRange_exact_iff.mpr ⟨by norm_num, by norm_num⟩
  zoomIn h := by
    rw [inZoomRange_exact_iff] at h ⊢
    rw [zoomIn_rescale_exact]
    exact ⟨le_min (by linarith) (by norm_num), min_le_right _ _⟩
  zoomOut h := by
    rw [inZoomRange_exact_iff] at h ⊢
    rw [zoomOut_rescale_exact]
    exact ⟨le_max_right _ _, max_le (by linarith) (by norm_num)⟩
  ne_zero h := by
    rw [inZoomRange_exact_iff] at h
    exact beq_eq_false_iff_ne.mpr (by linarith)

/-- An exact step inward that is not cut short is undone by a step outward. -/
theorem zoomOut_zoomIn {s : Session Rat} (h : InZoomRange s.scale)
    (hfree : s.zoomIn.scale = s.scale * zoomStep) : s.zoomIn.zoomOut = s := by
  obtain ⟨hleast, -⟩ := inZoomRange_exact_iff.mp h
  have hscale : s.zoomIn.zoomOut.scale = s.scale := by
    change Operation.zoomOut.rescale s.zoomIn.scale = s.scale
    rw [hfree, zoomOut_rescale_exact, zoomStep_exact, mul_div_cancel_right₀ _ (by norm_num)]
    exact max_eq_left hleast
  exact congrArg (Session.mk s.options s.diagram · s.drag) hscale

/-- An exact step outward that is not cut short is undone by a step inward. -/
theorem zoomIn_zoomOut {s : Session Rat} (h : InZoomRange s.scale)
    (hfree : s.zoomOut.scale = s.scale / zoomStep) : s.zoomOut.zoomIn = s := by
  obtain ⟨-, hgreatest⟩ := inZoomRange_exact_iff.mp h
  have hscale : s.zoomOut.zoomIn.scale = s.scale := by
    change Operation.zoomIn.rescale s.zoomOut.scale = s.scale
    rw [hfree, zoomIn_rescale_exact, zoomStep_exact, div_mul_cancel₀ _ (by norm_num)]
    exact min_eq_left hgreatest
  exact congrArg (Session.mk s.options s.diagram · s.drag) hscale

/-- In exact arithmetic a pointer is never too far away. -/
theorem offsetFrom_exact_ne_error {s : Session Rat} (h : (s.scale == 0) = false)
    (origin pointer : Point Rat) (fault : ArithmeticFault) :
    s.offsetFrom origin pointer ≠ .error fault := by
  have hpoint : s.toDiagram pointer = .ok ⟨pointer.x / s.scale, pointer.y / s.scale⟩ :=
    toDiagram_eq_ok_iff.mpr ⟨⟨rfl, rfl, rfl⟩, h, rfl⟩
  unfold offsetFrom
  rw [hpoint]
  intro hfault
  cases hfault

theorem dragTarget_exact_ne_arithmetic {s : Session Rat} (h : (s.scale == 0) = false)
    (pointer : Point Rat) (area : Option (Size Rat)) (fault : ArithmeticFault) :
    s.dragTarget pointer area ≠ .error (.arithmetic fault) := by
  unfold dragTarget
  split
  · simp
  · split
    · simp
    · intro hfault
      rcases bind_eq_error_iff.mp hfault with hcorner | ⟨corner, -, hfault⟩
      · exact offsetFrom_exact_ne_error h _ _ _ (mapError_eq_arithmetic_iff.mp hcorner)
      · cases area <;> cases hfault

end Exact

section Doubles

open Number

/-- The double that a step of zooming multiplies with or divides by. -/
def stepDouble : Float := Float.ofInt 12 / Float.ofInt 10

theorem exists_reading_stepDouble :
    ∃ value, Double.reading stepDouble = .finite false value ∧ 1 ≤ value :=
  ⟨5404319552844595 / 4503599627370496, by decide +kernel, by norm_num⟩

theorem exactReading_leastScale : (leastScale : Number).exactReading =
    .finite false (5404319552844595 / 18014398509481984) := by decide +kernel

theorem isDefined_leastScale : (leastScale : Number).IsDefined := by
  rw [IsDefined, exactReading_leastScale]
  exact Reading.noConfusion

theorem isDefined_greatestScale : (greatestScale : Number).IsDefined := Reading.noConfusion

theorem place_leastScale : (leastScale : Number).place =
    (((5404319552844595 / 18014398509481984 : Rat) : WithTop Rat) : WithBot (WithTop Rat)) := by
  rw [place, exactReading_leastScale]
  rfl

theorem place_whole (n : Int) :
    (whole n).place = (((n : Rat) : WithTop Rat) : WithBot (WithTop Rat)) := rfl

theorem place_double (x : Float) : (double x).place = (Double.reading x).place := rfl

theorem place_greatestScale : (greatestScale : Number).place =
    (((3 : Rat) : WithTop Rat) : WithBot (WithTop Rat)) := place_whole 3

theorem whole_le_whole {m n : Int} (h : m ≤ n) : (whole m).place ≤ (whole n).place := by
  rw [place_whole, place_whole, WithBot.coe_le_coe, WithTop.coe_le_coe]
  exact_mod_cast h

theorem leastScale_lt_whole {n : Int} (h : 0 < n) :
    (leastScale : Number).place < (whole n).place := by
  have hone : (1 : Rat) ≤ n := by exact_mod_cast h
  rw [place_leastScale, place_whole, WithBot.coe_lt_coe, WithTop.coe_lt_coe]
  linarith

theorem inZoomRange_iff {scale : Number} : InZoomRange scale ↔ scale.IsDefined ∧
    (leastScale : Number).place ≤ scale.place ∧ scale.place ≤ (greatestScale : Number).place := by
  have hleast := isDefined_leastScale
  have hgreatest := isDefined_greatestScale
  rw [InZoomRange, atMost_iff, atMost_iff]
  tauto

/-- A scale in range is a positive double, or a whole number that a double holds. -/
theorem InZoomRange.exists_reading {scale : Number} (h : InZoomRange scale) :
    ∃ negative value, Double.reading scale.toDouble = .finite negative value ∧ 0 < value ∧
      scale.place = (Double.reading scale.toDouble).place := by
  obtain ⟨hdefined, hleast, hgreatest⟩ := inZoomRange_iff.mp h
  rw [place_leastScale] at hleast
  rw [place_greatestScale] at hgreatest
  have hpos : (0 : Rat) < 5404319552844595 / 18014398509481984 := by norm_num
  cases scale with
  | whole n =>
    rw [place_whole, WithBot.coe_le_coe, WithTop.coe_le_coe] at hleast hgreatest
    have hlow : 0 < n := by exact_mod_cast hpos.trans_le hleast
    have hhigh : n ≤ 3 := by exact_mod_cast hgreatest
    have hreading : Double.reading (whole n).toDouble = (whole n).exactReading :=
      reading_whole (Double.isWhole_of_lt (by omega))
    exact ⟨_, n, hreading, by exact_mod_cast hlow, by rw [hreading, place]⟩
  | double x =>
    change Double.reading x ≠ .undefined at hdefined
    change ∃ negative value, Double.reading x = .finite negative value ∧ 0 < value ∧
      (double x).place = (Double.reading x).place
    rw [place_double] at hleast hgreatest ⊢
    cases hx : Double.reading x with
    | undefined => contradiction
    | infinite negative =>
      rw [hx] at hleast hgreatest
      cases negative with
      | true => exact absurd hleast (WithBot.not_coe_le_bot _)
      | false => exact absurd (WithBot.coe_le_coe.mp hgreatest) (WithTop.not_top_le_coe _)
    | finite negative value =>
      rw [hx, Reading.place, WithBot.coe_le_coe, WithTop.coe_le_coe] at hleast
      exact ⟨negative, value, rfl, hpos.trans_le hleast, rfl⟩

/-- A step inward never shrinks, not even after rounding. -/
theorem InZoomRange.place_le_mul {scale : Number} (h : InZoomRange scale) :
    (scale * zoomStep).IsDefined ∧ scale.place ≤ (scale * zoomStep).place := by
  obtain ⟨negative, value, hreading, hpos, hplace⟩ := h.exists_reading
  obtain ⟨step, hstep, hone⟩ := exists_reading_stepDouble
  have hproduct : scale * zoomStep = double (scale.toDouble * stepDouble) := by cases scale <;> rfl
  rw [hproduct, place_double, hplace]
  exact Double.le_mul_of_one_le hreading hpos hstep hone

/-- A step outward never enlarges, not even after rounding. -/
theorem InZoomRange.place_div_le {scale : Number} (h : InZoomRange scale) :
    (scale / zoomStep).IsDefined ∧ (scale / zoomStep).place ≤ scale.place := by
  obtain ⟨negative, value, hreading, hpos, hplace⟩ := h.exists_reading
  obtain ⟨step, hstep, hone⟩ := exists_reading_stepDouble
  have hquotient : scale / zoomStep = double (scale.toDouble / stepDouble) := by
    cases scale <;> rfl
  rw [hquotient, place_double, hplace]
  exact Double.div_le_of_one_le hreading hpos hstep hone

theorem zoomsInRange_number : ZoomsInRange Number where
  one := inZoomRange_iff.mpr ⟨Reading.noConfusion, (leastScale_lt_whole one_pos).le,
    whole_le_whole (by decide)⟩
  zoomIn {scale} h := by
    obtain ⟨-, hleast, -⟩ := inZoomRange_iff.mp h
    obtain ⟨hdefined, hgrows⟩ := h.place_le_mul
    rw [inZoomRange_iff, Operation.rescale, place_smaller hdefined isDefined_greatestScale]
    exact ⟨isDefined_smaller hdefined _,
      le_min (hleast.trans hgrows) (leastScale_lt_whole three_pos).le, min_le_right _ _⟩
  zoomOut {scale} h := by
    obtain ⟨-, -, hgreatest⟩ := inZoomRange_iff.mp h
    obtain ⟨hdefined, hshrinks⟩ := h.place_div_le
    rw [inZoomRange_iff, Operation.rescale, place_larger hdefined isDefined_leastScale]
    exact ⟨isDefined_larger hdefined _, le_max_right _ _,
      max_le (hshrinks.trans hgreatest) (leastScale_lt_whole three_pos).le⟩
  ne_zero {scale} h := by
    obtain ⟨-, hleast, -⟩ := inZoomRange_iff.mp h
    rw [← Bool.not_eq_true, beq_iff]
    rintro ⟨-, -, hzero⟩
    have hpos : (0 : Number).place < (leastScale : Number).place := by
      rw [place_zero, place_leastScale, WithBot.coe_lt_coe, WithTop.coe_lt_coe]
      norm_num
    exact (hpos.trans_le hleast).ne' hzero

theorem fits_of_inZoomRange {scale : Number} (h : InZoomRange scale) :
    Scalar.fits scale = true := by
  obtain ⟨negative, value, hreading, -⟩ := h.exists_reading
  exact fits_of_isFinite (isFinite_of_reading hreading)

variable {s : Session Number} (h : InZoomRange s.scale)
include h

/-- At a scale in range a point of the screen shows a point of the diagram unless it is too far
away. -/
theorem toDiagram_of_inZoomRange (screen : Point Number) : s.toDiagram screen =
    if Scalar.fits screen.x && Scalar.fits screen.y then
      .ok ⟨screen.x / s.scale, screen.y / s.scale⟩
    else .error .tooLarge := by
  have hzero := zoomsInRange_number.ne_zero h
  have hscale := fits_of_inZoomRange h
  unfold toDiagram Scalar.quotient
  rw [hzero, hscale]
  cases Scalar.fits screen.x <;> cases Scalar.fits screen.y <;> rfl

theorem exists_offsetFrom_eq_ok_iff {origin pointer : Point Number} :
    (∃ offset, s.offsetFrom origin pointer = .ok offset) ↔
      ∀ a ∈ [pointer.x, pointer.y, origin.x, origin.y], Scalar.fits a = true := by
  obtain ⟨x, hx⟩ := exists_div_eq pointer.x s.scale
  obtain ⟨y, hy⟩ := exists_div_eq pointer.y s.scale
  have hcombines (z : Float) (b : Number) : Scalar.combines (double z) b = Scalar.fits b := by
    cases b <;> rfl
  simp only [offsetFrom, bind_eq_ok_iff, toDiagram_eq_ok_iff, Scalar.difference_eq_ok_iff,
    List.forall_mem_cons]
  constructor
  · rintro ⟨offset, p, ⟨⟨hpx, hpy, -⟩, -, rfl⟩, _, ⟨hcx, -⟩, _, ⟨hcy, -⟩, -⟩
    rw [hx, hcombines] at hcx
    rw [hy, hcombines] at hcy
    exact ⟨hpx, hpy, hcx, hcy, by simp⟩
  · rintro ⟨hpx, hpy, hcx, hcy, -⟩
    refine ⟨_, _, ⟨⟨hpx, hpy, fits_of_inZoomRange h⟩, zoomsInRange_number.ne_zero h, rfl⟩,
      _, ⟨?_, rfl⟩, _, ⟨?_, rfl⟩, rfl⟩
    · rw [hx, hcombines, hcx]
    · rw [hy, hcombines, hcy]

/-- What is taken hold of has an offset unless a coordinate is too large. -/
theorem offsetFrom_eq_error_iff {origin pointer : Point Number} {fault : ArithmeticFault} :
    s.offsetFrom origin pointer = .error fault ↔ fault = .tooLarge ∧
      ¬∀ a ∈ [pointer.x, pointer.y, origin.x, origin.y], Scalar.fits a = true := by
  rw [← exists_offsetFrom_eq_ok_iff h]
  cases hoffset : s.offsetFrom origin pointer with
  | ok offset => simp
  | error other =>
    obtain rfl := eq_tooLarge_of_offsetFrom_eq_error (zoomsInRange_number.ne_zero h) hoffset
    simp [eq_comm]

end Doubles

/-- However a session is used, its scale stays between three tenths and three, so every point of the
screen that is not too far away shows a point of the diagram, and a drag that begins or goes on is
never divided by zero itself. A move ends in a division by zero exactly when the diagram with the
moved entity has a relationship that has lost its direction and no relationship before it ends the
drawing in another way; in exact arithmetic no move fails like this. Only zooming changes the scale,
and exact steps that are not cut short undo each other. -/
theorem scale_stays_in_range [Layered.ComponentLayout Number] [Layered.ComponentLayout Rat]
    (options : Options) (diagram : Diagram Number) (operations : List (Operation Number))
    (exactDiagram : Diagram Rat) (exactOperations : List (Operation Rat)) :
    let s := (create diagram options).run operations
    let e := (create exactDiagram options).run exactOperations
    (InZoomRange s.scale ∧
      (∀ screen, s.toDiagram screen = if Scalar.fits screen.x && Scalar.fits screen.y then
        .ok ⟨screen.x / s.scale, screen.y / s.scale⟩ else .error .tooLarge) ∧
      (∀ entity pointer fault, (s.beginDrag entity pointer).2 = .error (.arithmetic fault) ↔
        fault = .tooLarge ∧ s.drag = none ∧ ∃ n corner, s.diagram.node? entity = some n ∧
          n.position = some corner ∧
          ¬∀ a ∈ [pointer.x, pointer.y, corner.x, corner.y], Scalar.fits a = true) ∧
      (∀ pointer area fault, s.dragTarget pointer area = .error (.arithmetic fault) →
        fault = .tooLarge) ∧
      (∀ pointer area, (s.dragTo pointer area).2 = .error (.arithmetic .divisionByZero) ↔
        ∃ entity corner, s.dragTarget pointer area = .ok (entity, corner) ∧
          (s.diagram.setPosition entity (some corner)).EndsWithoutDirection) ∧
      ∀ operation ∉ [.zoomIn, .zoomOut, .resetZoom],
        (s.perform operation).1.scale = s.scale) ∧
    InZoomRange e.scale ∧ (∀ screen, ∃ p, e.toDiagram screen = .ok p) ∧
      (∀ entity pointer fault, (e.beginDrag entity pointer).2 ≠ .error (.arithmetic fault)) ∧
      (∀ pointer area fault, (e.dragTo pointer area).2 ≠ .error (.arithmetic fault)) ∧
      (∀ operation ∉ [.zoomIn, .zoomOut, .resetZoom],
        (e.perform operation).1.scale = e.scale) ∧
      (e.zoomIn.scale = e.scale * zoomStep → e.zoomIn.zoomOut = e) ∧
      (e.zoomOut.scale = e.scale / zoomStep → e.zoomOut.zoomIn = e) := by
  intro s e
  constructor
  · have hrange := zoomsInRange_number.run_create diagram options operations
    have hscale := zoomsInRange_number.ne_zero hrange
    refine ⟨hrange, toDiagram_of_inZoomRange hrange, ?_, ?_, ?_,
      fun operation => scale_perform_of_not_mem⟩
    · intro entity pointer fault
      rw [beginDrag_eq_error_iff, dragFrom_eq_arithmetic_iff]
      constructor
      · rintro ⟨hnone, n, corner, hn, hcorner, hoffset⟩
        obtain ⟨rfl, hfits⟩ := (offsetFrom_eq_error_iff hrange).mp hoffset
        exact ⟨rfl, hnone, n, corner, hn, hcorner, hfits⟩
      · rintro ⟨rfl, hnone, n, corner, hn, hcorner, hfits⟩
        exact ⟨hnone, n, corner, hn, hcorner, (offsetFrom_eq_error_iff hrange).mpr ⟨rfl, hfits⟩⟩
    · exact fun pointer area fault => eq_tooLarge_of_dragTarget_eq_error hscale
    · intro pointer area
      rw [dragTo_eq_arithmetic_iff, or_iff_right]
      · simp only [Diagram.draw_eq_divisionByZero_iff]
      · intro hfault
        exact absurd (eq_tooLarge_of_dragTarget_eq_error hscale hfault) (by decide)
  · have hrange := zoomsInRange_exact.run_create exactDiagram options exactOperations
    have hscale := zoomsInRange_exact.ne_zero hrange
    refine ⟨hrange, fun screen => ⟨_, toDiagram_eq_ok_iff.mpr ⟨⟨rfl, rfl, rfl⟩, hscale, rfl⟩⟩,
      ?_, ?_, fun operation => scale_perform_of_not_mem, zoomOut_zoomIn hrange,
      zoomIn_zoomOut hrange⟩
    · intro entity pointer fault h
      obtain ⟨-, n, corner, -, -, hoffset⟩ :=
        dragFrom_eq_arithmetic_iff.mp (beginDrag_eq_error_iff.mp h)
      exact offsetFrom_exact_ne_error hscale _ _ _ hoffset
    · intro pointer area fault h
      rcases dragTo_eq_arithmetic_iff.mp h with htarget | ⟨entity, corner, -, hdraw⟩
      · exact dragTarget_exact_ne_arithmetic hscale _ _ _ htarget
      · obtain ⟨drawing, hdrawing⟩ :=
          (e.diagram.setPosition entity (some corner)).exists_draw_eq_ok_exact
        rw [hdrawing] at hdraw
        contradiction

/-- From the first scale there is room for a step either way, and the end of a drag is no step. -/
theorem scale_stays_in_range_of_one_step :
    let s : Session Rat := create Diagram.empty .default
    s.zoomIn.zoomOut = s ∧ s.zoomOut.zoomIn = s ∧ (s.perform .endDrag).1.scale = s.scale := by
  intro s
  obtain ⟨-, -, -, -, -, hsame, hinward, houtward⟩ :=
    scale_stays_in_range .default Diagram.empty [] Diagram.empty []
  exact ⟨hinward (by decide_cbv), houtward (by decide_cbv), hsame .endDrag (by simp)⟩

/-- The scale is one, but the centers of the two boxes come to lie beyond the doubles. -/
theorem not_forall_dragTo_ne_divisionByZero :
    ¬∀ (diagram : Diagram Number) (options : Options) (operations : List (Operation Number))
        (pointer : Point Number) (area : Option (Size Number)),
      (((create diagram options).run operations).dragTo pointer area).2 ≠
        .error (.arithmetic .divisionByZero) := by
  let diagram : Diagram Number :=
    { nodes :=
        [⟨⟨"A", [⟨"id", "n", false, false, none⟩], []⟩, some ⟨.double 1.5e308, .double 0⟩,
            some ⟨.double 1.5e308, .double 10⟩⟩,
          ⟨⟨"B", [], [⟨"a", "n", false, false, some ⟨"A", "id"⟩⟩]⟩,
            some ⟨.double 0, .double 0⟩, some ⟨.double 1.5e308, .double 10⟩⟩]
      relationships := [⟨⟨"B", "a"⟩, ⟨"A", "id"⟩, none⟩]
      generalizations := [] }
  intro h
  exact h diagram .default [.beginDrag "B" ⟨.double 0, .double 0⟩] ⟨.double 1.5e308, .double 0⟩ none
    (by decide +kernel)

end Session

end EntityDiagram
