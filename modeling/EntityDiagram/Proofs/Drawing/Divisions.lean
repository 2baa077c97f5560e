import EntityDiagram.Proofs.Drawing.Overflow
import EntityDiagram.Proofs.Scalar.Rounding
import EntityDiagram.Proofs.Scalar.Sums

/-! Drawings that end in a division by zero. Only the ends of a relationship are found by division;
a junction and its connectors are rounded and fail in other ways. So a drawing ends like this
exactly when the first of its relationships without an answer runs between two finite boxes and has
lost its direction, because both centers lie beyond the doubles at one height. -/
namespace EntityDiagram

section

variable {α β γ : Type}

/-- A computation that no division by zero ends. -/
def NeverDivides (x : Except (Failure α) β) : Prop := x ≠ .error (.arithmetic .divisionByZero)

theorem Answers.neverDivides {x : Except (Failure α) β} (h : Answers x) : NeverDivides x := h _

theorem NeverDivides.bind {x : Except (Failure α) β} {f : β → Except (Failure α) γ}
    (hx : NeverDivides x) (hf : ∀ b, NeverDivides (f b)) : NeverDivides (x >>= f) := by
  intro h
  rcases bind_eq_error_iff.mp h with h | ⟨b, -, h⟩
  · exact hx h
  · exact hf b h

/-- After a step that no division by zero ends, one that does must come later. -/
theorem NeverDivides.bind_eq_error_iff {x : Except (Failure α) β} {f : β → Except (Failure α) γ}
    (hx : NeverDivides x) : (x >>= f) = .error (.arithmetic .divisionByZero) ↔
      ∃ b, x = .ok b ∧ f b = .error (.arithmetic .divisionByZero) :=
  EntityDiagram.bind_eq_error_iff.trans (or_iff_right hx)

theorem NeverDivides.map {x : Except (Failure α) β} (f : β → γ) (hx : NeverDivides x) :
    NeverDivides (x.map f) := fun h => hx (map_eq_error_iff.mp h)

theorem ofPart_eq_error_iff {part : Except (Failure α) (List (Primitive α))}
    {fault : ArithmeticFault} :
    Drawing.ofPart part = .error fault ↔ part = .error (.arithmetic fault) := by
  rcases part with (e | other) | primitives <;> simp [Drawing.ofPart]

variable {parts rest : List (Except ArithmeticFault (Drawing α))} {fault : ArithmeticFault}

/-- A drawing ends with a fault of its first parts, or they have a drawing and it ends later. -/
theorem collect_append_eq_error_iff : Drawing.collect (parts ++ rest) = .error fault ↔
    Drawing.collect parts = .error fault ∨
      (∃ drawing, Drawing.collect parts = .ok drawing) ∧ Drawing.collect rest = .error fault := by
  induction parts with
  | nil => simp [Drawing.collect]
  | cons part parts ih =>
    rw [List.cons_append, Drawing.collect, Drawing.collect]
    cases part with
    | error other => simp [bind, Except.bind]
    | ok first =>
      cases hparts : Drawing.collect parts <;> cases hall : Drawing.collect (parts ++ rest) <;>
        simp_all [bind, Except.bind, pure, Except.pure]

/-- What ends a drawing is the first part that has no block. -/
theorem collect_map_eq_error_iff {f : β → Except ArithmeticFault (Drawing α)} {l : List β} :
    Drawing.collect (l.map f) = .error fault ↔ ∃ before b after, l = before ++ b :: after ∧
      (∀ c ∈ before, ∃ block, f c = .ok block) ∧ f b = .error fault := by
  constructor
  · intro h
    induction l with
    | nil => contradiction
    | cons b rest ih =>
      rw [List.map_cons, Drawing.collect] at h
      rcases bind_eq_error_iff.mp h with hb | ⟨block, hblock, h⟩
      · exact ⟨[], b, rest, rfl, by simp, hb⟩
      · rcases bind_eq_error_iff.mp h with hrest | ⟨others, -, h⟩
        · obtain ⟨before, c, after, rfl, hbefore, hc⟩ := ih hrest
          refine ⟨b :: before, c, after, rfl, ?_, hc⟩
          exact List.forall_mem_cons.mpr ⟨⟨block, hblock⟩, hbefore⟩
        · contradiction
  · rintro ⟨before, b, after, rfl, hbefore, hb⟩
    rw [List.map_append, List.map_cons, collect_append_eq_error_iff, exists_collect_eq_ok_iff]
    refine .inr ⟨by simpa using hbefore, ?_⟩
    rw [hb]
    rfl

end

section

variable {α : Type} [Scalar α]

theorem quotientOf_eq_divisionByZero_iff {a b : α} :
    quotientOf a b = .error (.arithmetic .divisionByZero) ↔
      (Scalar.fits a = true ∧ Scalar.fits b = true) ∧ (b == 0) = true := by
  unfold quotientOf Scalar.quotient
  cases Scalar.fits a <;> cases Scalar.fits b <;> cases b == 0 <;> simp [Except.mapError]

theorem neverDivides_checkFinite (subject : Option String) (numbers : List α) :
    NeverDivides (checkFinite subject numbers) := by
  unfold checkFinite NeverDivides
  split
  · simp
  · split <;> simp [Failure.geometry]

theorem neverDivides_roundedHalfUp (a : α) : NeverDivides (roundedHalfUp a) := by
  unfold roundedHalfUp Scalar.roundHalfUp
  cases Scalar.fits a <;> cases Scalar.reading (a + 1 / 2) <;> intro h <;> cases h

theorem neverDivides_route (start finish : Point α) (subject : Option String) :
    NeverDivides (route start finish subject) := by
  have hpoints (points : List (Point α)) :
      NeverDivides (points.forM fun p => checkFinite subject [p.x, p.y]) := by
    induction points with
    | nil => exact (answers_ok ()).neverDivides
    | cons p rest ih =>
      rw [List.forM_eq_forM, List.forM_cons]
      exact (neverDivides_checkFinite _ _).bind fun _ => ih
  unfold route
  exact (hpoints _).bind fun _ => (answers_ok _).neverDivides

theorem neverDivides_relationshipSymbols (target source : Point α) (c : Cardinality)
    (identifying : Bool) (subject : Option String) :
    NeverDivides (relationshipSymbols target source c identifying subject) := by
  unfold relationshipSymbols NeverDivides
  split
  · simp [Failure.geometry]
  · split <;> simp

theorem neverDivides_below (generic : Rect α) (complete : Bool)
    (discriminator subject : Option String) :
    NeverDivides (Hub.below generic complete discriminator subject) := by
  unfold Hub.below
  refine (neverDivides_checkFinite _ _).bind fun _ => ?_
  refine (neverDivides_roundedHalfUp _).bind fun _ => ?_
  exact (neverDivides_roundedHalfUp _).bind fun _ => (answers_ok _).neverDivides

theorem neverDivides_categoryPoints (anchor : Point α) (category : Rect α)
    (subject : Option String) : NeverDivides (categoryPoints anchor category subject) := by
  unfold categoryPoints
  refine (neverDivides_checkFinite _ _).bind fun _ => ?_
  refine (neverDivides_roundedHalfUp _).bind fun _ => ?_
  refine (neverDivides_roundedHalfUp _).bind fun _ => ?_
  exact (neverDivides_roundedHalfUp _).bind fun _ => (answers_ok _).neverDivides

end

namespace Diagram

section

variable {α : Type} [Scalar α] {d : Diagram α}

theorem neverDivides_hubPart (g : Generalization) : NeverDivides (d.hubPart g) := by
  unfold hubPart
  refine (answers_requireNode _ _).neverDivides.bind fun n => ?_
  exact (answers_rect n).neverDivides.bind fun generic => neverDivides_below _ _ _ _

theorem neverDivides_connectorPart (g : Generalization) (hub : Hub α) (name : String) :
    NeverDivides (d.connectorPart g hub name) := by
  unfold connectorPart categoryConnector
  refine (answers_requireNode _ _).neverDivides.bind fun n => ?_
  refine (answers_rect n).neverDivides.bind fun category => ?_
  exact ((neverDivides_categoryPoints _ _ _).map _).bind fun _ => (answers_ok _).neverDivides

theorem generalizationDrawing_ne_divisionByZero (g : Generalization) :
    d.generalizationDrawing g ≠ .error .divisionByZero := by
  unfold generalizationDrawing
  split
  · rename_i failure hhub
    intro h
    obtain rfl : failure = .arithmetic .divisionByZero :=
      Except.error.inj (ofPart_eq_error_iff.mp h)
    exact neverDivides_hubPart g hhub
  · rename_i hub hhub
    intro h
    rcases bind_eq_error_iff.mp h with h | ⟨block, -, h⟩
    · contradiction
    · rcases bind_eq_error_iff.mp h with h | ⟨others, -, h⟩
      · obtain ⟨_, name, _, _, _, hname⟩ := collect_map_eq_error_iff.mp h
        exact neverDivides_connectorPart g hub name (ofPart_eq_error_iff.mp hname)
      · contradiction

/-- A drawing ends in a division by zero exactly when the first of its relationships without an
answer does. -/
theorem draw_eq_divisionByZero_iff_exists_part : d.draw = .error .divisionByZero ↔
    ∃ before r after, d.relationships = before ++ r :: after ∧
      (∀ q ∈ before, Answers (d.relationshipPart q)) ∧
      d.relationshipPart r = .error (.arithmetic .divisionByZero) := by
  have hboxes : ∃ drawing, Drawing.collect (d.nodes.map fun n => Drawing.ofPart (boxPart n)) =
      .ok drawing := by
    rw [exists_collect_eq_ok_iff]
    simp only [List.forall_mem_map, exists_ofPart_eq_ok_iff]
    exact fun n _ => answers_map_iff.mpr (answers_rect n)
  obtain ⟨boxes, hboxes⟩ := hboxes
  have hgeneralizations : Drawing.collect (d.generalizations.map d.generalizationDrawing) ≠
      .error .divisionByZero := by
    intro h
    obtain ⟨_, g, _, _, _, hg⟩ := collect_map_eq_error_iff.mp h
    exact generalizationDrawing_ne_divisionByZero g hg
  rw [draw, collect_append_eq_error_iff, collect_append_eq_error_iff, hboxes]
  simp only [hgeneralizations, and_false, or_false, reduceCtorEq, false_or, Except.ok.injEq,
    exists_eq', true_and, collect_map_eq_error_iff, exists_ofPart_eq_ok_iff, ofPart_eq_error_iff]

end

end Diagram

section Doubles

open Number

/-- The center of a finite rectangle may lie beyond the doubles, but it is defined. -/
theorem reading_center_x_ne_undefined {r : Rect Number} (h : r.IsFinite) :
    Scalar.reading r.center.x ≠ .undefined := by
  obtain ⟨negative, value, hx⟩ := exists_reading_of_isFinite (h r.x (by simp [Rect.numbers]))
  obtain ⟨negative', width, hwidth⟩ :=
    exists_reading_of_isFinite (h r.width (by simp [Rect.numbers]))
  have hhalf : r.width / 2 = double (r.width.toDouble / Float.ofInt 2) := by
    have hfits := fits_of_isFinite (h r.width (by simp [Rect.numbers]))
    cases hw : r.width with
    | whole n => exact if_pos (Bool.and_eq_true_iff.mpr ⟨hw ▸ hfits, by decide +kernel⟩)
    | double x => rfl
  have hcenter : r.center.x = double (r.x.toDouble + r.width.toDouble / Float.ofInt 2) := by
    rw [Rect.center, hhalf, add_double]
  rw [hcenter]
  exact Double.reading_add_ne_undefined hx (Double.reading_half_ne_undefined hwidth)

/-- The width between two centers is undefined exactly where both lie beyond the doubles on one
side. -/
theorem reading_center_sub_eq_undefined_iff {source target : Rect Number} (h : source.IsFinite)
    (h' : target.IsFinite) : Scalar.reading (target.center.x - source.center.x) = .undefined ↔
      ∃ negative, Scalar.reading target.center.x = .infinite negative ∧
        Scalar.reading source.center.x = .infinite negative := by
  have hsource := reading_center_x_ne_undefined h
  have htarget := reading_center_x_ne_undefined h'
  obtain ⟨sx, sy, hs⟩ := exists_center_eq source
  obtain ⟨tx, ty, ht⟩ := exists_center_eq target
  rw [hs] at hsource ⊢
  rw [ht] at htarget ⊢
  exact Double.reading_sub_eq_undefined_iff htarget hsource

/-- Two finite rectangles without a direction from one to the other: their centers differ by
something undefined in width and by nothing in height. -/
def Rect.LosesDirection (source target : Rect Number) : Prop :=
  source.IsFinite ∧ target.IsFinite ∧
    Scalar.reading (target.center.x - source.center.x) = .undefined ∧
    (target.center.y - source.center.y == 0) = true

theorem Rect.LosesDirection.swap {source target : Rect Number} (h : source.LosesDirection target) :
    target.LosesDirection source := by
  obtain ⟨hsource, htarget, hundefined, hlevel⟩ := h
  obtain ⟨sx, sy, hs⟩ := exists_center_eq source
  obtain ⟨tx, ty, ht⟩ := exists_center_eq target
  refine ⟨htarget, hsource, ?_, ?_⟩
  · rw [hs, ht] at hundefined ⊢
    exact Double.reading_sub_swap_eq_undefined_iff.mpr hundefined
  · rw [hs, ht] at hlevel ⊢
    exact double_beq_zero_iff.mpr (Double.isZero_sub_swap.mpr (double_beq_zero_iff.mp hlevel))

theorem edgePoint_eq_divisionByZero_iff {r : Rect Number} {x y : Float} :
    r.edgePoint (double x) (double y) = .error (.arithmetic .divisionByZero) ↔
      Double.IsZero y ∧ (Double.IsZero x ∨ Double.reading x = .undefined) := by
  rw [← greaterDifference_beq_zero_iff]
  unfold Rect.edgePoint greaterDifference
  simp only
  split
  · rw [map_eq_error_iff, quotientOf_eq_divisionByZero_iff]
    exact and_iff_right ⟨rfl, rfl⟩
  · rw [map_eq_error_iff, quotientOf_eq_divisionByZero_iff]
    exact and_iff_right ⟨rfl, rfl⟩

theorem connectionPoint_eq_divisionByZero_iff {source target : Rect Number}
    {subject : Option String} :
    connectionPoint source target subject = .error (.arithmetic .divisionByZero) ↔
      source.LosesDirection target := by
  obtain ⟨sx, sy, hs⟩ := exists_center_eq source
  obtain ⟨tx, ty, ht⟩ := exists_center_eq target
  have hx : target.center.x - source.center.x = double (tx - sx) := by rw [hs, ht]; rfl
  have hy : target.center.y - source.center.y = double (ty - sy) := by rw [hs, ht]; rfl
  unfold connectionPoint Rect.LosesDirection
  rw [hx, hy, double_beq_zero_iff]
  constructor
  · intro h
    obtain ⟨⟨⟩, hsource, h⟩ := (neverDivides_checkFinite _ _).bind_eq_error_iff.mp h
    obtain ⟨⟨⟩, htarget, h⟩ := (neverDivides_checkFinite _ _).bind_eq_error_iff.mp h
    refine ⟨checkFinite_eq_ok_iff.mp hsource, checkFinite_eq_ok_iff.mp htarget, ?_⟩
    simp only at h
    split at h
    · cases h
    · rename_i hshared
      rcases bind_eq_error_iff.mp h with h | ⟨edge, -, h⟩
      · obtain ⟨hlevel, hzero | hundefined⟩ := edgePoint_eq_divisionByZero_iff.mp h
        · refine absurd (Bool.and_eq_true_iff.mpr ⟨?_, ?_⟩) hshared
          · exact double_beq_zero_iff.mpr hzero
          · exact double_beq_zero_iff.mpr hlevel
        · exact ⟨hundefined, hlevel⟩
      · refine absurd h ((neverDivides_checkFinite _ _).bind fun _ => (answers_ok _).neverDivides)
  · rintro ⟨hsource, htarget, hundefined, hlevel⟩
    have hshared : ¬((double (tx - sx) : Number) == 0 && (double (ty - sy) : Number) == 0) =
        true := by
      rw [Bool.and_eq_true_iff, double_beq_zero_iff]
      rintro ⟨⟨negative, hzero⟩, -⟩
      change Double.reading (tx - sx) = _ at hundefined
      rw [hundefined] at hzero
      contradiction
    rw [checkFinite_eq_ok_iff.mpr hsource, checkFinite_eq_ok_iff.mpr htarget]
    change (if _ then _ else _) = _
    rw [if_neg hshared]
    refine bind_eq_error_iff.mpr (.inl ?_)
    exact edgePoint_eq_divisionByZero_iff.mpr ⟨hlevel, .inr hundefined⟩

namespace Diagram

/-- A relationship between finite boxes whose centers both lie beyond the doubles on one side, at
heights that do not differ. -/
def LosesDirection (d : Diagram Number) (r : Relationship) : Prop :=
  ∃ source target c, d.HasRect r.source.entity source ∧ d.HasRect r.target.entity target ∧
    d.schema.cardinality r = .ok c ∧ source.IsFinite ∧ target.IsFinite ∧
      (∃ negative, Scalar.reading target.center.x = .infinite negative ∧
        Scalar.reading source.center.x = .infinite negative) ∧
      (target.center.y - source.center.y == 0) = true

theorem relationshipPart_eq_divisionByZero_iff {d : Diagram Number} {r : Relationship} :
    d.relationshipPart r = .error (.arithmetic .divisionByZero) ↔ d.LosesDirection r := by
  unfold relationshipPart
  constructor
  · intro h
    obtain ⟨n, hn, h⟩ := (answers_requireNode _ _).neverDivides.bind_eq_error_iff.mp h
    obtain ⟨m, hm, h⟩ := (answers_requireNode _ _).neverDivides.bind_eq_error_iff.mp h
    obtain ⟨c, hc, h⟩ := (answers_cardinality d r).neverDivides.bind_eq_error_iff.mp h
    obtain ⟨source, hsource, h⟩ := (answers_rect n).neverDivides.bind_eq_error_iff.mp h
    obtain ⟨target, htarget, h⟩ := (answers_rect m).neverDivides.bind_eq_error_iff.mp h
    have hlost : source.LosesDirection target := by
      rcases bind_eq_error_iff.mp h with h | ⟨start, -, h⟩
      · exact connectionPoint_eq_divisionByZero_iff.mp h
      · rcases bind_eq_error_iff.mp h with h | ⟨finish, -, h⟩
        · exact (connectionPoint_eq_divisionByZero_iff.mp h).swap
        · refine absurd h ((neverDivides_route _ _ _).bind fun _ => ?_)
          exact (neverDivides_relationshipSymbols _ _ _ _ _).bind fun _ =>
            (answers_ok _).neverDivides
    obtain ⟨hfinite, hfinite', hundefined, hlevel⟩ := hlost
    exact ⟨source, target, c, ⟨n, requireNode_eq_ok_iff.mp hn, hsource⟩,
      ⟨m, requireNode_eq_ok_iff.mp hm, htarget⟩, mapError_eq_ok_iff.mp hc, hfinite, hfinite',
      (reading_center_sub_eq_undefined_iff hfinite hfinite').mp hundefined, hlevel⟩
  · rintro ⟨source, target, c, ⟨n, hn, hsource⟩, ⟨m, hm, htarget⟩, hc, hfinite, hfinite', hbeyond,
      hlevel⟩
    have hundefined := (reading_center_sub_eq_undefined_iff hfinite hfinite').mpr hbeyond
    refine bind_eq_error_iff.mpr (.inr ⟨n, requireNode_eq_ok_iff.mpr hn, ?_⟩)
    refine bind_eq_error_iff.mpr (.inr ⟨m, requireNode_eq_ok_iff.mpr hm, ?_⟩)
    refine bind_eq_error_iff.mpr (.inr ⟨c, mapError_eq_ok_iff.mpr hc, ?_⟩)
    refine bind_eq_error_iff.mpr (.inr ⟨source, hsource, ?_⟩)
    refine bind_eq_error_iff.mpr (.inr ⟨target, htarget, ?_⟩)
    refine bind_eq_error_iff.mpr (.inl ?_)
    exact connectionPoint_eq_divisionByZero_iff.mpr ⟨hfinite, hfinite', hundefined, hlevel⟩

/-- The first relationship of a diagram without an answer has lost its direction. -/
def EndsWithoutDirection (d : Diagram Number) : Prop :=
  ∃ before r after, d.relationships = before ++ r :: after ∧
    (∀ q ∈ before, Answers (d.relationshipPart q)) ∧ d.LosesDirection r

/-- A drawing ends in a division by zero exactly when its first relationship without an answer has
lost its direction. -/
theorem draw_eq_divisionByZero_iff {d : Diagram Number} :
    d.draw = .error .divisionByZero ↔ d.EndsWithoutDirection := by
  simp only [draw_eq_divisionByZero_iff_exists_part, relationshipPart_eq_divisionByZero_iff,
    EndsWithoutDirection]

end Diagram

end Doubles

end EntityDiagram
