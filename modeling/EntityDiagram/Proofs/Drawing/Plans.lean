import EntityDiagram.Proofs.Drawing.Isolation

/-! A generalization of a diagram and the plan of it that is made from boxes alone. A plan fails as
a whole where a drawing leaves out single connectors, but both come to the same: what a plan has is
drawn, and where there is no plan, its error is the first one of the drawing, but for the subject,
and only what cannot be drawn is missing. -/
namespace EntityDiagram

variable {α β γ : Type}

/-- An error without the part of the drawing that it is about. -/
def PartError.withoutSubject : PartError α → PartError α
  | geometry error => geometry { error with subject := none }
  | inconsistency error => inconsistency error

def Failure.withoutSubject : Failure α → Failure α
  | part error => part error.withoutSubject
  | arithmetic fault => arithmetic fault

/-- Two computations that agree but for the subject of an error, which the second does not name. -/
def AgreesUnnamed (x y : Except (Failure α) β) : Prop := x.mapError .withoutSubject = y

namespace AgreesUnnamed

variable {x y : Except (Failure α) β}

theorem ok (b : β) : AgreesUnnamed (α := α) (.ok b) (.ok b) := rfl

theorem arithmetic (x : Except ArithmeticFault β) :
    AgreesUnnamed (α := α) (x.mapError .arithmetic) (x.mapError .arithmetic) := by
  cases x <;> rfl

theorem bind {f g : β → Except (Failure α) γ} (h : AgreesUnnamed x y)
    (hf : ∀ b, AgreesUnnamed (f b) (g b)) : AgreesUnnamed (x >>= f) (y >>= g) := by
  obtain rfl := h
  cases x with
  | error failure => rfl
  | ok b => exact hf b

theorem map (h : AgreesUnnamed x y) (f : β → γ) : AgreesUnnamed (x.map f) (y.map f) := by
  obtain rfl := h
  cases x <;> rfl

theorem eq_ok_iff (h : AgreesUnnamed x y) {b : β} : x = .ok b ↔ y = .ok b := by
  obtain rfl := h
  exact mapError_eq_ok_iff.symm

theorem exists_geometry (h : AgreesUnnamed x y) (hnames : FindsNames x) {e : PartError α}
    (hx : x = .error (.part e)) :
    ∃ error, y = .error (.part (.geometry error)) ∧ e.withoutSubject = .geometry error := by
  obtain rfl := h
  cases e with
  | geometry error => exact ⟨{ error with subject := none }, by rw [hx]; rfl, rfl⟩
  | inconsistency error => exact absurd hx (hnames error)

variable [Scalar α]

theorem checkFinite (subject : Option String) (numbers : List α) :
    AgreesUnnamed (checkFinite subject numbers) (checkFinite none numbers) := by
  unfold EntityDiagram.checkFinite
  split
  · rfl
  · split <;> rfl

theorem below (generic : Rect α) (complete : Bool) (discriminator subject : Option String) :
    AgreesUnnamed (Hub.below generic complete discriminator subject)
      (Hub.below generic complete discriminator none) :=
  bind (.checkFinite _ _) fun _ => bind (arithmetic _) fun _ => bind (arithmetic _) fun _ => .ok _

theorem categoryConnector (anchor : Point α) (category : Rect α) (subject : Option String) :
    AgreesUnnamed (categoryConnector anchor category subject)
      (categoryConnector anchor category none) :=
  map (bind (.checkFinite _ _) fun _ => bind (arithmetic _) fun _ => bind (arithmetic _) fun _ =>
    bind (arithmetic _) fun _ => .ok _) _

end AgreesUnnamed

/-- What is drawn for a category: its connector, or the error of it. -/
inductive DrawsConnector (connector : Except (Failure α) (Primitive α)) : Drawing α → Prop
  | connector {p : Primitive α} (h : connector = .ok p) : DrawsConnector connector ⟨[p], []⟩
  | error {error : GeometryError α} {e : PartError α}
      (h : connector = .error (.part (.geometry error)))
      (herror : e.withoutSubject = .geometry error) : DrawsConnector connector ⟨[], [e]⟩

section

variable {connector : β → Except (Failure α) (Primitive α)} {categories : List β}
  {blocks : List (Drawing α)}
  (h : List.Forall₂ (fun category => DrawsConnector (connector category)) categories blocks)
include h

/-- The connectors that are drawn are those that can be computed. -/
theorem primitives_join_connectors : (Drawing.join blocks).primitives =
    categories.filterMap fun category => (connector category).toOption := by
  induction h with
  | nil => rfl
  | cons hblock _ ih =>
    rw [Drawing.join_cons, Drawing.primitives_append, ih]
    cases hblock with
    | connector hconnector => rw [List.filterMap_cons_some (by rw [hconnector]; rfl)]; rfl
    | error hconnector _ => rw [List.filterMap_cons_none (by rw [hconnector]; rfl)]; rfl

/-- All connectors are computed and drawn, or the first error ends the computation and is the first
in the drawing. -/
theorem mapM_connectors_cases :
    (∃ connectors, categories.mapM connector = .ok connectors ∧
        Drawing.join blocks = ⟨connectors, []⟩) ∨
      ∃ error e errors, categories.mapM connector = .error (.part (.geometry error)) ∧
        e.withoutSubject = .geometry error ∧ (Drawing.join blocks).errors = e :: errors := by
  induction h with
  | nil => exact .inl ⟨[], rfl, rfl⟩
  | cons hblock _ ih =>
    rw [List.mapM_cons, Drawing.join_cons]
    cases hblock with
    | connector hconnector =>
      rw [hconnector]
      rcases ih with ⟨connectors, hok, hjoin⟩ | ⟨error, e, errors, hfails, herror, hjoin⟩
      · exact .inl ⟨_ :: connectors, by rw [hok]; rfl, by rw [hjoin]; rfl⟩
      · exact .inr ⟨error, e, errors, by rw [hfails]; rfl, herror, hjoin⟩
    | error hconnector herror =>
      rw [hconnector]
      exact .inr ⟨_, _, _, rfl, herror, rfl⟩

end

variable [Scalar α]

/-- What a drawing has of a generalization between boxes: its plan; or where the boxes have no plan,
the error of it, with neither junction nor connectors or with the junction and every connector that
can be computed. -/
inductive AgreesWithPlan (g : Generalization) (generic : Rect α) (categories : List (Rect α)) :
    Drawing α → Prop
  | plan {plan : GeneralizationPlan α}
      (hplan : GeneralizationPlan.ofRects generic categories g.complete g.discriminator =
        .ok plan) : AgreesWithPlan g generic categories ⟨plan.primitives, []⟩
  | noHub {error : GeometryError α} {e : PartError α}
      (hhub : Hub.below generic g.complete g.discriminator none =
        .error (.part (.geometry error)))
      (hplan : GeneralizationPlan.ofRects generic categories g.complete g.discriminator =
        .error (.part (.geometry error)))
      (herror : e.withoutSubject = .geometry error) :
      AgreesWithPlan g generic categories ⟨[], [e]⟩
  | hub {error : GeometryError α} {hub : Hub α} {e : PartError α} {errors : List (PartError α)}
      (hhub : Hub.below generic g.complete g.discriminator none = .ok hub)
      (hplan : GeneralizationPlan.ofRects generic categories g.complete g.discriminator =
        .error (.part (.geometry error)))
      (herror : e.withoutSubject = .geometry error) :
      AgreesWithPlan g generic categories
        ⟨hub.primitives ++ categories.filterMap fun category =>
          (categoryConnector hub.anchor category none).toOption, e :: errors⟩

namespace Diagram

variable {d : Diagram α} {g : Generalization}

omit [Scalar α] in
theorem HasRect.requireNode {name : String} {rect : Rect α} (h : d.HasRect name rect)
    (part : String) : ∃ n, d.requireNode name part = .ok n ∧ n.rect = .ok rect := by
  obtain ⟨n, hn, hrect⟩ := h
  exact ⟨n, requireNode_eq_ok_iff.mpr hn, hrect⟩

omit [Scalar α] in
theorem HasRect.unique {name : String} {first second : Rect α} (h : d.HasRect name first)
    (h' : d.HasRect name second) : first = second := by
  obtain ⟨n, hn, hrect⟩ := h
  obtain ⟨m, hm, hrect'⟩ := h'
  obtain rfl := Option.some.inj (hn.symm.trans hm)
  exact Except.ok.inj (hrect.symm.trans hrect')

theorem hubPart_of_hasRect {rect : Rect α} (h : d.HasRect g.generic rect) :
    d.hubPart g =
      Hub.below rect g.complete g.discriminator (some (generalizationSubject g)) := by
  obtain ⟨n, hn, hrect⟩ := h.requireNode (generalizationSubject g)
  simp only [hubPart, hn]
  change (n.rect >>= fun rect => Hub.below rect _ _ _) = _
  rw [hrect]
  rfl

theorem connectorPart_of_hasRect {name : String} {rect : Rect α} (h : d.HasRect name rect)
    (hub : Hub α) : d.connectorPart g hub name =
      (categoryConnector hub.anchor rect (some (generalizationSubject g ++ " -> " ++ name))).map
        ([·]) := by
  obtain ⟨n, hn, hrect⟩ := h.requireNode (generalizationSubject g ++ " -> " ++ name)
  simp only [connectorPart, hn]
  change (n.rect >>= fun rect => categoryConnector hub.anchor rect _ >>= fun p => pure [p]) = _
  rw [hrect]
  change (categoryConnector hub.anchor rect _ >>= fun p => pure [p]) = _
  cases categoryConnector hub.anchor rect (some (generalizationSubject g ++ " -> " ++ name)) <;> rfl

/-- What a category with a box adds to a drawing is its connector, or the error of it. -/
theorem AddsConnector.drawsConnector {hub : Hub α} {name : String} {rect : Rect α}
    {block : Drawing α} (h : d.AddsConnector g hub name block) (hrect : d.HasRect name rect) :
    DrawsConnector (categoryConnector hub.anchor rect none) block := by
  have hagrees := AgreesUnnamed.categoryConnector hub.anchor rect
    (some (generalizationSubject g ++ " -> " ++ name))
  cases h with
  | connector hcategory hpoints =>
    obtain rfl := hcategory.unique hrect
    exact .connector (hagrees.eq_ok_iff.mp (by rw [categoryConnector, hpoints]; rfl))
  | error herror =>
    rw [connectorPart_of_hasRect hrect, map_eq_error_iff] at herror
    obtain ⟨error, hconnector, herror⟩ := hagrees.exists_geometry (.categoryConnector _ _ _) herror
    exact .error hconnector herror

theorem AddsConnector.forall₂_drawsConnector {hub : Hub α} {names : List String}
    {rects : List (Rect α)} {blocks : List (Drawing α)}
    (hrects : List.Forall₂ d.HasRect names rects)
    (h : List.Forall₂ (d.AddsConnector g hub) names blocks) :
    List.Forall₂ (fun rect => DrawsConnector (categoryConnector hub.anchor rect none)) rects
      blocks := by
  induction hrects generalizing blocks with
  | nil =>
    cases h
    exact .nil
  | cons hrect _ ih =>
    cases h with
    | cons hblock hblocks => exact .cons (hblock.drawsConnector hrect) (ih hblocks)

/-- A generalization between boxes is drawn as its plan, as far as it can be computed. -/
theorem AddsGeneralization.agreesWithPlan {generic : Rect α} {categories : List (Rect α)}
    {block : Drawing α} (h : d.AddsGeneralization g block) (hgeneric : d.HasRect g.generic generic)
    (hcategories : List.Forall₂ d.HasRect g.categories categories) :
    AgreesWithPlan g generic categories block := by
  have hagrees := AgreesUnnamed.below generic g.complete g.discriminator
    (some (generalizationSubject g))
  cases h with
  | error hpart =>
    rw [hubPart_of_hasRect hgeneric] at hpart
    obtain ⟨error, hhub, herror⟩ := hagrees.exists_geometry (.below _ _ _ _) hpart
    exact .noHub hhub (by rw [GeneralizationPlan.ofRects, hhub]; rfl) herror
  | @block _ hub connectors hgeneric' hhub hconnectors =>
    obtain rfl := hgeneric.unique hgeneric'
    have hhub := hagrees.eq_ok_iff.mp hhub
    have hdraws := AddsConnector.forall₂_drawsConnector hcategories hconnectors
    have hplan : GeneralizationPlan.ofRects generic categories g.complete g.discriminator =
        categories.mapM (categoryConnector hub.anchor · none) >>= fun connectors =>
          .ok ⟨hub, connectors⟩ := by
      rw [GeneralizationPlan.ofRects, hhub]
      rfl
    rcases mapM_connectors_cases hdraws with
      ⟨paths, hpaths, hjoin⟩ | ⟨error, e, errors, hfails, herror, hjoin⟩
    · rw [hpaths] at hplan
      rw [hjoin]
      exact .plan hplan
    · rw [hfails] at hplan
      have hblock : (⟨hub.primitives, []⟩ ++ Drawing.join connectors : Drawing α) =
          ⟨hub.primitives ++ categories.filterMap fun category =>
            (categoryConnector hub.anchor category none).toOption, e :: errors⟩ := by
        rw [← primitives_join_connectors hdraws, ← hjoin]
        rfl
      rw [hblock]
      exact .hub hhub hplan herror

/-- Every generalization of a drawing agrees with its plan. -/
theorem draw_agrees_with_plans {drawing : Drawing α} (h : d.draw = .ok drawing) :
    ∃ boxes relationships generalizations,
      d.HasBlocks boxes relationships generalizations ∧
      drawing = Drawing.join (boxes ++ relationships ++ generalizations) ∧
      List.Forall₂ (fun g block => ∀ generic categories, d.HasRect g.generic generic →
          List.Forall₂ d.HasRect g.categories categories →
          AgreesWithPlan g generic categories block)
        d.generalizations generalizations := by
  obtain ⟨boxes, relationships, generalizations, hboxes, hrelationships, hgeneralizations, rfl⟩ :=
    draw_eq_ok_iff.mp h
  have hblocks := hasBlocks_of_map_eq hboxes hrelationships hgeneralizations
  refine ⟨boxes, relationships, generalizations, hblocks, rfl, hblocks.generalizations.imp ?_⟩
  intro g block hblock generic categories hgeneric hcategories
  exact hblock.agreesWithPlan hgeneric hcategories

/-- A generalization without a plan, since one of its categories is at no finite place. The junction
is drawn with the connector of the other category: beside three boxes there are a circle, two lines,
a label and a path, and one error. -/
theorem draw_agrees_with_plans_of_infinite_position :
    ∃ (d : Diagram Number) (drawing : Drawing Number), d.draw = .ok drawing ∧
      drawing.primitives.length = 3 + 4 + 1 ∧ drawing.errors.length = 1 ∧
      ∃ g block generic categories, d.generalizations = [g] ∧ d.HasRect g.generic generic ∧
        List.Forall₂ d.HasRect g.categories categories ∧
        AgreesWithPlan g generic categories block := by
  let d : Diagram Number :=
    { nodes :=
        [⟨⟨"A", [⟨"id", "n", false, false, none⟩], []⟩, some ⟨0, 0⟩, some ⟨100, 50⟩⟩,
          ⟨⟨"B", [], []⟩, some ⟨.double (1 / 0), 0⟩, some ⟨100, 50⟩⟩,
          ⟨⟨"C", [], []⟩, some ⟨300, 200⟩, some ⟨100, 50⟩⟩]
      relationships := []
      generalizations := [⟨"A", ["B", "C"], true, some "kind"⟩] }
  have hcounts : d.draw.toOption.map
      (fun drawing => (drawing.primitives.length, drawing.errors.length)) = some (8, 1) := by
    decide +kernel
  cases hdraw : d.draw with
  | error fault =>
    rw [hdraw] at hcounts
    contradiction
  | ok drawing =>
    rw [hdraw] at hcounts
    obtain ⟨hprimitives, herrors⟩ := Prod.mk.inj (Option.some.inj hcounts)
    obtain ⟨-, -, generalizations, -, -, hplans⟩ := draw_agrees_with_plans hdraw
    cases hplans with
    | cons hblock _ =>
      have hA : d.HasRect "A" ⟨0, 0, 100, 50⟩ := ⟨_, rfl, rfl⟩
      have hB : d.HasRect "B" ⟨.double (1 / 0), 0, 100, 50⟩ := ⟨_, rfl, rfl⟩
      have hC : d.HasRect "C" ⟨300, 200, 100, 50⟩ := ⟨_, rfl, rfl⟩
      have hcategories := List.Forall₂.cons hB (.cons hC .nil)
      exact ⟨d, drawing, hdraw, hprimitives, herrors, _, _, _, _, rfl, hA, hcategories,
        hblock _ _ hA hcategories⟩

end Diagram

end EntityDiagram
