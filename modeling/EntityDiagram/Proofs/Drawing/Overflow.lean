import EntityDiagram.Proofs.Drawing.Faults
import EntityDiagram.Proofs.Scalar.WholeDoubles
import EntityDiagram.Scalar.Exact

/-! Which diagrams are drawn to their end. In exact arithmetic all of them are. With doubles a sum
of finite numbers can be infinite, and the difference of two such sums undefined: a rectangle that
ends beyond the doubles has no whole bottom edge, and two centers that lie there may have no
direction. A whole number never overflows, but it can become too large to be used as a double. -/
namespace EntityDiagram

section Exact

theorem checkable_exact (numbers : List Rat) : Checkable numbers := .inl fun _ _ => rfl

/-- The greater of two differences is zero only where both are. -/
theorem greaterDifference_eq_zero_iff {dx dy : Rat} :
    greaterDifference dx dy = 0 ↔ dx = 0 ∧ dy = 0 := by
  simp only [greaterDifference, isHorizontal, decide_eq_true_eq]
  change (if (if dy < 0 then -dy else dy) < (if dx < 0 then -dx else dx)
    then (if dx < 0 then -dx else dx) else (if dy < 0 then -dy else dy)) = 0 ↔ _
  grind

theorem answers_connectionPoint_exact (source target : Rect Rat) (subject : Option String) :
    Answers (connectionPoint source target subject) := by
  refine answers_connectionPoint_iff.mpr ⟨checkable_exact _, fun _ => ⟨checkable_exact _,
    fun _ hshared => ⟨?_, fun _ _ => checkable_exact _⟩⟩⟩
  rw [answers_edgePoint_iff fun _ _ => rfl, ← Bool.not_eq_true]
  intro hzero
  obtain ⟨hx, hy⟩ := greaterDifference_eq_zero_iff.mp (beq_iff_eq.mp hzero)
  rw [hx, hy] at hshared
  contradiction

/-- In exact arithmetic every diagram has a drawing. -/
theorem Diagram.exists_draw_eq_ok_exact (d : Diagram Rat) : ∃ drawing, d.draw = .ok drawing := by
  rw [exists_draw_eq_ok_iff]
  refine ⟨fun r _ => ?_, fun g _ => ⟨?_, fun hub _ name _ => ?_⟩⟩
  · rw [answers_relationshipPart_iff]
    intro source target c _ _ _
    refine ⟨answers_connectionPoint_exact source target _, fun start _ =>
      ⟨answers_connectionPoint_exact target source _, fun finish _ => ⟨?_, fun _ _ => ?_⟩⟩⟩
    · exact answers_route_of_checkable _ fun _ _ => checkable_exact _
    · exact answers_relationshipSymbols_iff.mpr fun _ => rfl
  · rw [answers_hubPart_iff]
    intro generic _
    exact ⟨checkable_exact _, fun _ => ⟨⟨_, rfl⟩, _, rfl⟩⟩
  · rw [answers_connectorPart_iff]
    intro category _
    exact ⟨checkable_exact _, fun _ => ⟨⟨_, rfl⟩, ⟨_, rfl⟩, fun _ _ => ⟨_, rfl⟩⟩⟩

end Exact

section Doubles

open Number

theorem double_beq_zero_iff {x : Float} : (double x == (0 : Number)) = true ↔ Double.IsZero x := by
  change (Double.reading x).isSame (.finite false 0) = true ↔ ∃ negative, _
  cases Double.reading x <;> simp [Reading.isSame]

/-- The center of a rectangle is computed with quotients, so its coordinates are doubles. -/
theorem exists_center_eq (r : Rect Number) : ∃ x y, r.center = ⟨double x, double y⟩ := by
  obtain ⟨width, hwidth⟩ := exists_div_eq r.width 2
  obtain ⟨height, hheight⟩ := exists_div_eq r.height 2
  exact ⟨_, _, by rw [Rect.center, hwidth, hheight, add_double, add_double]⟩

/-- A finite number can be used as a double. -/
theorem fits_of_isFinite {a : Number} (h : Scalar.isFinite a = true) : Scalar.fits a = true := by
  cases a with
  | whole n => exact h
  | double x => rfl

theorem checkable_iff {numbers : List Number} :
    Checkable numbers ↔ ∀ a ∈ numbers, Scalar.fits a = true :=
  ⟨fun h => h.elim (fun hfinite a ha => fits_of_isFinite (hfinite a ha)) id, .inr⟩

/-- What is finite after a half is added can be rounded. -/
theorem exists_roundHalfUp_number_iff {a : Number} :
    (∃ b, Scalar.roundHalfUp a = .ok b) ↔ Scalar.isFinite (a + 1 / 2) = true := by
  rw [exists_roundHalfUp_eq_ok_iff, and_iff_right_iff_imp]
  intro h
  obtain ⟨half, hhalf⟩ := exists_div_eq 1 2
  obtain ⟨negative, value, hsum⟩ := exists_reading_of_isFinite h
  rw [hhalf, add_double] at hsum
  obtain ⟨_, _, hfirst⟩ := Double.exists_reading_of_add hsum
  exact fits_of_isFinite (isFinite_of_reading hfirst)

theorem isHorizontal_double_iff {x y : Float} :
    isHorizontal (double x) (double y) = true ↔ y.abs < x.abs := by
  rw [isHorizontal, decide_eq_true_iff]
  exact decide_eq_true_iff

/-- The greater of two differences is zero where both are, and where the first is undefined. -/
theorem greaterDifference_beq_zero_iff {x y : Float} :
    (greaterDifference (double x) (double y) == 0) = true ↔
      Double.IsZero y ∧ (Double.IsZero x ∨ Double.reading x = .undefined) := by
  unfold greaterDifference
  by_cases hlt : y.abs < x.abs
  · rw [if_pos (isHorizontal_double_iff.mpr hlt)]
    change (double x.abs == 0) = true ↔ _
    rw [double_beq_zero_iff, Double.isZero_abs_iff]
    constructor
    · intro hx
      exact absurd hlt (Double.not_abs_lt_of_isZero hx)
    · rintro ⟨hy, hx | hx⟩
      · exact hx
      · exact absurd hx ((Double.abs_lt_abs_iff_of_isZero hy).mp hlt).2
  · rw [if_neg (mt isHorizontal_double_iff.mp hlt)]
    change (double y.abs == 0) = true ↔ _
    rw [double_beq_zero_iff, Double.isZero_abs_iff]
    refine ⟨fun hy => ⟨hy, ?_⟩, And.left⟩
    by_contra hx
    exact hlt ((Double.abs_lt_abs_iff_of_isZero hy).mpr (not_or.mp hx))

theorem answers_edgePoint_double_iff {r : Rect Number} {x y : Float} :
    Answers (r.edgePoint (double x) (double y)) ↔
      ¬(Double.IsZero y ∧ (Double.IsZero x ∨ Double.reading x = .undefined)) := by
  rw [answers_edgePoint_iff, ← Bool.not_eq_true, greaterDifference_beq_zero_iff]
  simp only [List.forall_mem_cons]
  exact ⟨rfl, rfl, rfl, rfl, by simp⟩

/-- All four numbers of a rectangle can be used as doubles. -/
def Rect.Fits (r : Rect Number) : Prop := ∀ a ∈ r.numbers, Scalar.fits a = true

/-- The end of a connector at a rectangle, towards another: the numbers of both can be examined, the
centers do not differ by nothing in height and by something undefined in width, and the point at the
edge can be examined too. A far edge may be a whole number that is too large. -/
structure EndAvoidsOverflow (source target : Rect Number) : Prop where
  source_fits : source.Fits
  target_fits : source.IsFinite → target.Fits
  directed : source.IsFinite → target.IsFinite →
    ¬(Scalar.reading (target.center.x - source.center.x) = .undefined ∧
      (target.center.y - source.center.y == 0) = true)
  edge_fits : source.IsFinite → target.IsFinite →
    let dx := target.center.x - source.center.x
    let dy := target.center.y - source.center.y
    ∀ edge, source.edgePoint dx dy = .ok edge →
      Scalar.fits (inset dx dy edge).x = true ∧ Scalar.fits (inset dx dy edge).y = true

theorem answers_connectionPoint_number_iff {source target : Rect Number}
    {subject : Option String} :
    Answers (connectionPoint source target subject) ↔ EndAvoidsOverflow source target := by
  obtain ⟨sx, sy, hsource⟩ := exists_center_eq source
  obtain ⟨tx, ty, htarget⟩ := exists_center_eq target
  have hx : target.center.x - source.center.x = double (tx - sx) := by rw [hsource, htarget]; rfl
  have hy : target.center.y - source.center.y = double (ty - sy) := by rw [hsource, htarget]; rfl
  have hshared : (((double (tx - sx) : Number) == 0) && ((double (ty - sy) : Number) == 0)) =
      false ↔ ¬(Double.IsZero (tx - sx) ∧ Double.IsZero (ty - sy)) := by
    rw [Bool.and_eq_false_iff, ← Bool.not_eq_true, ← Bool.not_eq_true, double_beq_zero_iff,
      double_beq_zero_iff, ← not_and_or]
  have hanswers := @answers_connectionPoint_iff _ _ source target subject
  simp only [hx, hy, hshared, answers_edgePoint_double_iff, checkable_iff] at hanswers
  rw [hanswers]
  constructor
  · rintro ⟨hsfits, h⟩
    refine ⟨hsfits, fun hs => (h hs).1, ?_, ?_⟩
    · rw [hx, hy, double_beq_zero_iff]
      rintro hs ht ⟨hundefined, hlevel⟩
      have hdefined : ¬Double.IsZero (tx - sx) := by
        rintro ⟨negative, hzero⟩
        change Double.reading (tx - sx) = _ at hundefined
        rw [hundefined] at hzero
        contradiction
      exact ((h hs).2 ht fun hzero => hdefined hzero.1).1 ⟨hlevel, .inr hundefined⟩
    · rw [hx, hy]
      intro hs ht dx dy edge hedge
      have hne := answers_edgePoint_double_iff.mp (hedge ▸ answers_ok edge)
      simpa using ((h hs).2 ht fun hzero => hne ⟨hzero.2, .inl hzero.1⟩).2 edge hedge
  · rintro ⟨hsfits, htfits, hdirected, hedge⟩
    rw [hx, hy] at hedge
    rw [hx, hy, double_beq_zero_iff] at hdirected
    refine ⟨hsfits, fun hs => ⟨htfits hs, fun ht hdiffer => ⟨?_, fun edge hok => ?_⟩⟩⟩
    · rintro ⟨hlevel, hzero | hundefined⟩
      · exact hdiffer ⟨hzero, hlevel⟩
      · exact hdirected hs ht ⟨hundefined, hlevel⟩
    · simpa using hedge hs ht edge hok

/-- Between finite points every point of a route can be examined: a bend is half-way, and what is
halved is a double. -/
theorem answers_route_of_isFinite {start finish : Point Number} (subject : Option String)
    (hstart : Scalar.isFinite start.x = true ∧ Scalar.isFinite start.y = true)
    (hfinish : Scalar.isFinite finish.x = true ∧ Scalar.isFinite finish.y = true) :
    Answers (route start finish subject) := by
  apply answers_route_of_checkable
  have hsx := fits_of_isFinite hstart.1
  have hsy := fits_of_isFinite hstart.2
  have hfx := fits_of_isFinite hfinish.1
  have hfy := fits_of_isFinite hfinish.2
  have hhalf (a : Number) : Scalar.fits (a / 2) = true := by
    obtain ⟨x, hx⟩ := exists_div_eq a 2
    rw [hx]
    rfl
  have hmiddle (a b : Number) : Scalar.fits (a + b / 2) = true := by
    obtain ⟨x, hx⟩ := exists_div_eq b 2
    rw [hx, add_double]
    rfl
  unfold Route.between
  simp only
  split <;> simp [Route.points, checkable_iff, *]

end Doubles

/-- Ends that do not differ have no difference that is too large. -/
theorem Number.fits_alongDifference_of_shared {target source : Point Number}
    (h : (target.x - source.x == 0 && target.y - source.y == 0) = true) :
    Scalar.fits (alongDifference target source) = true := by
  have hzero {a : Number} (ha : (a == 0) = true) : Scalar.fits a = true := by
    cases a with
    | whole n =>
      obtain rfl : n = 0 := of_decide_eq_true ha
      decide +kernel
    | double x => rfl
  obtain ⟨hx, hy⟩ := Bool.and_eq_true_iff.mp h
  unfold alongDifference
  simp only
  split
  · exact hzero hx
  · exact hzero hy

/-- A connector between two rectangles: neither end overflows, and the difference of both ends along
the greater axis can be used as a double. -/
structure ConnectorAvoidsOverflow (source target : Rect Number) (subject : Option String) :
    Prop where
  start : EndAvoidsOverflow source target
  finish : ∀ start, connectionPoint source target subject = .ok start →
    EndAvoidsOverflow target source
  difference : ∀ start finish line, connectionPoint source target subject = .ok start →
    connectionPoint target source subject = .ok finish → route start finish subject = .ok line →
      Scalar.fits (alongDifference finish start) = true

namespace Diagram

/-- Where the parts of a diagram stay within the doubles: connectors do, and every coordinate of a
junction or a connector to a category that is rounded is finite. -/
structure AvoidsOverflow (d : Diagram Number) : Prop where
  relationships : ∀ r ∈ d.relationships, ∀ source target c, d.HasRect r.source.entity source →
    d.HasRect r.target.entity target → d.schema.cardinality r = .ok c →
      ConnectorAvoidsOverflow source target (some (relationshipSubject r))
  junctions : ∀ g ∈ d.generalizations, ∀ generic, d.HasRect g.generic generic → generic.Fits ∧
    (generic.IsFinite →
      Scalar.isFinite (generic.x + generic.width / 2 + 1 / 2) = true ∧
      Scalar.isFinite (generic.bottom + 1 / 2) = true)
  connectors : ∀ g ∈ d.generalizations, ∀ hub, d.hubPart g = .ok hub → ∀ name ∈ g.categories,
    ∀ category, d.HasRect name category → category.Fits ∧ (category.IsFinite →
      Scalar.isFinite (category.x + category.width / 2 + 1 / 2) = true ∧
      Scalar.isFinite (category.y + 1 / 2) = true ∧
      ∀ y, Scalar.roundHalfUp category.y = .ok y →
        Scalar.isFinite (hub.anchor.y + (y - hub.anchor.y) / 2 + 1 / 2) = true)

theorem answers_relationshipPart_number_iff {d : Diagram Number} {r : Relationship} :
    Answers (d.relationshipPart r) ↔ ∀ source target c, d.HasRect r.source.entity source →
      d.HasRect r.target.entity target → d.schema.cardinality r = .ok c →
        ConnectorAvoidsOverflow source target (some (relationshipSubject r)) := by
  rw [answers_relationshipPart_iff]
  refine forall₃_congr fun source target c => forall₃_congr fun _ _ _ => ?_
  simp only [answers_connectionPoint_number_iff, answers_relationshipSymbols_iff]
  constructor
  · rintro ⟨hstart, h⟩
    refine ⟨hstart, fun start hok => (h start hok).1, ?_⟩
    intro start finish line hs hf hline
    by_cases hshared : (finish.x - start.x == 0 && finish.y - start.y == 0) = true
    · exact Number.fits_alongDifference_of_shared hshared
    · exact (((h start hs).2 finish hf).2 line hline) (Bool.not_eq_true _ ▸ hshared)
  · rintro ⟨hstart, hfinish, hdifference⟩
    refine ⟨hstart, fun start hs => ⟨hfinish start hs, fun finish hf => ⟨?_, ?_⟩⟩⟩
    · obtain ⟨-, -, hstart⟩ := isFinite_of_connectionPoint_eq_ok hs
      obtain ⟨-, -, hfinish⟩ := isFinite_of_connectionPoint_eq_ok hf
      exact answers_route_of_isFinite _ hstart hfinish
    · intro line hline _
      exact hdifference start finish line hs hf hline

theorem exists_draw_eq_ok_iff_avoidsOverflow {d : Diagram Number} :
    (∃ drawing, d.draw = .ok drawing) ↔ d.AvoidsOverflow := by
  rw [exists_draw_eq_ok_iff]
  simp only [answers_relationshipPart_number_iff, answers_hubPart_iff, answers_connectorPart_iff,
    checkable_iff, exists_roundHalfUp_number_iff]
  constructor
  · rintro ⟨hrelationships, hgeneralizations⟩
    exact ⟨hrelationships, fun g hg => (hgeneralizations g hg).1,
      fun g hg => (hgeneralizations g hg).2⟩
  · intro h
    exact ⟨h.relationships, fun g hg => ⟨h.junctions g hg, h.connectors g hg⟩⟩

/-- Whatever positions and bounds are given, missing or not finite, a diagram has a drawing of whole
parts and errors exactly when nothing that is computed for its finite rectangles overflows on the
way to a division or a rounding. -/
theorem draw_answers_iff_avoidsOverflow (d : Diagram Number) :
    (∃ drawing boxes relationships generalizations, d.draw = .ok drawing ∧
      d.HasBlocks boxes relationships generalizations ∧
      drawing = Drawing.join (boxes ++ relationships ++ generalizations)) ↔ d.AvoidsOverflow := by
  rw [← exists_draw_eq_ok_iff_avoidsOverflow]
  constructor
  · rintro ⟨drawing, -, -, -, hdraw, -⟩
    exact ⟨drawing, hdraw⟩
  · rintro ⟨drawing, hdraw⟩
    obtain ⟨boxes, relationships, generalizations, hboxes, hrelationships, hgeneralizations,
      hjoin⟩ := draw_eq_ok_iff.mp hdraw
    exact ⟨drawing, boxes, relationships, generalizations, hdraw,
      hasBlocks_of_map_eq hboxes hrelationships hgeneralizations, hjoin⟩

/-- A generic entity whose bottom edge lies beyond the doubles takes all of the drawing with it. -/
theorem not_forall_draw_answers : ¬∀ d : Diagram Number, ∃ drawing, d.draw = .ok drawing := by
  let d : Diagram Number :=
    { nodes := [⟨⟨"P", [], []⟩, some ⟨.double 0, .double 1.7e308⟩,
        some ⟨.double 10, .double 1.7e308⟩⟩]
      relationships := []
      generalizations := [⟨"P", [], false, none⟩] }
  intro h
  obtain ⟨drawing, hdrawing⟩ := h d
  have hfault : d.draw = .error .infiniteInteger := by decide +kernel
  rw [hfault] at hdrawing
  contradiction

end Diagram

end EntityDiagram
