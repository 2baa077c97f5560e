import EntityDiagram.Proofs.Drawing.Faults
import EntityDiagram.Proofs.Pairing
import EntityDiagram.Proofs.Path.Pen

/-! The lines of a drawing. Whatever the positions and bounds are, a path that is drawn has four
finite points and every segment along an axis, so no command of its text is oblique. It runs between
two connection points, or down from a junction. -/
namespace EntityDiagram

/-- Two points share a coordinate. -/
def Point.IsAligned (a b : Point Number) : Prop := (b.x == a.x) = true ∨ (b.y == a.y) = true

/-- Four finite points, one after the other along an axis. -/
structure IsConnector (points : List (Point Number)) : Prop where
  length : points.length = 4
  finite : ∀ p ∈ points, p.IsFinite
  aligned : points.IsChain Point.IsAligned

section Arithmetic

theorem roundedHalfUp_eq_ok_iff {a b : Number} :
    roundedHalfUp a = .ok b ↔ Scalar.roundHalfUp a = .ok b := mapError_eq_ok_iff

theorem Number.exists_double_of_roundHalfUp_eq_ok {a b : Number}
    (h : Scalar.roundHalfUp a = .ok b) : ∃ x, b = double x := by
  obtain ⟨n, -, rfl⟩ := map_eq_ok_iff.mp (Scalar.roundHalfUp_eq_ok_iff.mp h).2
  exact ⟨_, rfl⟩

theorem Number.beq_self_of_isFinite {a : Number} (h : Scalar.isFinite a = true) :
    (a == a) = true := by
  cases a with
  | whole n => exact decide_eq_true rfl
  | double x =>
    obtain ⟨negative, value, hreading⟩ := exists_reading_of_isFinite h
    apply Double.beq_iff_isSame.mpr
    change Double.reading x = .finite negative value at hreading
    rw [hreading]
    exact decide_eq_true rfl

/-- The start of a finite half-way is finite. -/
theorem Number.isFinite_of_roundHalfUp_halfway {x : Float} {a b : Number}
    (h : Scalar.roundHalfUp (double x + (a - double x) / 2) = .ok b) :
    Scalar.isFinite (double x) = true := by
  have hsum : Scalar.isFinite (double x + (a - double x) / 2 + 1 / 2) = true :=
    (exists_roundHalfUp_eq_ok_iff.mp ⟨b, h⟩).2
  exact isFinite_double_of_add (isFinite_double_of_add hsum)

end Arithmetic

/-- Four points, turning at right angles. -/
theorem isConnector_of_beq {a b c d : Point Number} (h : ∀ p ∈ [a, b, c, d], p.IsFinite)
    (hab : a.IsAligned b) (hbc : b.IsAligned c) (hcd : c.IsAligned d) :
    IsConnector [a, b, c, d] :=
  ⟨rfl, h, by simp [hab, hbc, hcd]⟩

theorem forM_checkFinite_eq_ok_iff {subject : Option String} {points : List (Point Number)} :
    points.forM (fun p => checkFinite subject [p.x, p.y]) = .ok () ↔ ∀ p ∈ points, p.IsFinite := by
  induction points with
  | nil => simp [pure, Except.pure]
  | cons p rest ih =>
    rw [List.forM_eq_forM] at ih ⊢
    have hp : checkFinite subject [p.x, p.y] = .ok () ↔ p.IsFinite := by
      simp [checkFinite_eq_ok_iff, Point.IsFinite]
    rw [List.forM_cons, bind_eq_ok_iff, List.forall_mem_cons, ← hp, ← ih]
    constructor
    · rintro ⟨⟨⟩, hfirst, hrest⟩
      exact ⟨hfirst, hrest⟩
    · rintro ⟨hfirst, hrest⟩
      exact ⟨(), hfirst, hrest⟩

theorem isFinite_of_route_eq_ok {start finish : Point Number} {subject : Option String}
    {line : Route Number} (h : route start finish subject = .ok line) :
    line = .between start finish ∧ ∀ p ∈ line.points, p.IsFinite := by
  unfold route at h
  obtain ⟨⟨⟩, hpoints, hline⟩ := bind_eq_ok_iff.mp h
  obtain rfl := Except.ok.inj hline
  refine ⟨rfl, fun p hp => forM_checkFinite_eq_ok_iff.mp hpoints p ?_⟩
  exact List.mem_append_left _ hp

/-- A route turns at right angles on either axis. -/
theorem isConnector_route {start finish : Point Number} {subject : Option String}
    {line : Route Number} (h : route start finish subject = .ok line) :
    IsConnector line.points := by
  obtain ⟨rfl, hfinite⟩ := isFinite_of_route_eq_ok h
  have hself : ∀ p ∈ (Route.between start finish).points,
      (p.x == p.x) = true ∧ (p.y == p.y) = true := by
    intro p hp
    exact ⟨Number.beq_self_of_isFinite (hfinite p hp).1,
      Number.beq_self_of_isFinite (hfinite p hp).2⟩
  unfold Route.between at hfinite hself ⊢
  simp only at hfinite hself ⊢
  split at hfinite
  · rename_i hwide
    simp only [if_pos hwide, Route.points] at hself ⊢
    simp only [List.forall_mem_cons] at hself
    exact isConnector_of_beq hfinite (.inr hself.1.2) (.inl hself.2.1.1) (.inr hself.2.2.1.2)
  · rename_i hwide
    simp only [if_neg hwide, Route.points] at hself ⊢
    simp only [List.forall_mem_cons] at hself
    exact isConnector_of_beq hfinite (.inl hself.1.1) (.inr hself.2.1.2) (.inl hself.2.2.1.1)

theorem route_ends {start finish : Point Number} {subject : Option String}
    {line : Route Number} (h : route start finish subject = .ok line) :
    line.points.head? = some start ∧ line.points.getLast? = some finish := by
  obtain ⟨rfl, -⟩ := isFinite_of_route_eq_ok h
  unfold Route.between
  simp only
  split <;> exact ⟨rfl, rfl⟩

/-- A junction hangs at a finite place across, and at a double down, which need not be finite. -/
theorem exists_anchor_of_below_eq_ok {generic : Rect Number} {complete : Bool}
    {discriminator subject : Option String} {hub : Hub Number}
    (h : Hub.below generic complete discriminator subject = .ok hub) :
    Scalar.isFinite hub.anchor.x = true ∧ ∃ y, hub.anchor.y = .double y := by
  unfold Hub.below at h
  simp only [bind_eq_ok_iff, roundedHalfUp_eq_ok_iff] at h
  obtain ⟨-, -, x, hx, bottom, hbottom, hhub⟩ := h
  obtain rfl := Except.ok.inj hhub
  obtain ⟨b, rfl⟩ := Number.exists_double_of_roundHalfUp_eq_ok hbottom
  exact ⟨Number.isFinite_of_roundHalfUp_eq_ok hx, _, rfl⟩

/-- A connector to a category turns at right angles. That its middle could be rounded shows that
its start is finite. -/
theorem isConnector_categoryPoints {generic category : Rect Number} {complete : Bool}
    {discriminator subject subject' : Option String} {hub : Hub Number}
    {points : List (Point Number)}
    (hhub : Hub.below generic complete discriminator subject = .ok hub)
    (h : categoryPoints hub.anchor category subject' = .ok points) :
    IsConnector points ∧ points.head? = some hub.anchor := by
  obtain ⟨hanchor, start, hstart⟩ := exists_anchor_of_below_eq_ok hhub
  generalize hub.anchor = anchor at h hanchor hstart ⊢
  unfold categoryPoints at h
  simp only [bind_eq_ok_iff, roundedHalfUp_eq_ok_iff] at h
  obtain ⟨-, -, x, hx, y, hy, middle, hmiddle, hpoints⟩ := h
  obtain rfl := Except.ok.inj hpoints
  have hx := Number.isFinite_of_roundHalfUp_eq_ok hx
  have hy := Number.isFinite_of_roundHalfUp_eq_ok hy
  have hdown : Scalar.isFinite anchor.y = true := by
    rw [hstart] at hmiddle ⊢
    exact Number.isFinite_of_roundHalfUp_halfway hmiddle
  have hmiddle := Number.isFinite_of_roundHalfUp_eq_ok hmiddle
  refine ⟨isConnector_of_beq ?_ (.inl ?_) (.inr ?_) (.inl ?_), rfl⟩
  · simp [Point.IsFinite, hanchor, hdown, hmiddle, hx, hy]
  · exact Number.beq_self_of_isFinite hanchor
  · exact Number.beq_self_of_isFinite hmiddle
  · exact Number.beq_self_of_isFinite hx

namespace PathCommand

/-- A horizontal or a vertical step. -/
def isAlongAxis {α : Type} : PathCommand α → Bool
  | horizontal _ | vertical _ => true
  | _ => false

/-- One move, and three steps along an axis. -/
def AreRightAngled {α : Type} (commands : List (PathCommand α)) : Prop :=
  ∃ x y a b c, commands = [moveTo x y, a, b, c] ∧ a.isAlongAxis = true ∧ b.isAlongAxis = true ∧
    c.isAlongAxis = true

theorem AreRightAngled.map {α β : Type} {commands : List (PathCommand α)}
    (h : AreRightAngled commands) (f : α → β) :
    AreRightAngled (commands.map (PathCommand.map f)) := by
  have hmap (c : PathCommand α) : (c.map f).isAlongAxis = c.isAlongAxis := by cases c <;> rfl
  obtain ⟨x, y, a, b, c, rfl, ha, hb, hc⟩ := h
  refine ⟨f x, f y, a.map f, b.map f, c.map f, rfl, ?_, ?_, ?_⟩
  · rwa [hmap]
  · rwa [hmap]
  · rwa [hmap]

theorem isAlongAxis_between {a b : Point Number} (h : a.IsAligned b) :
    (between a b).isAlongAxis = true := by
  unfold between
  split_ifs with hy hx
  · rfl
  · rfl
  · cases h with
    | inl hsame => exact absurd hsame hx
    | inr hsame => exact absurd hsame hy

theorem letter_ne_of_isAlongAxis {α : Type} {c : PathCommand α} (h : c.isAlongAxis = true) :
    c.letter ≠ 'L' := by
  cases c <;> simp_all [isAlongAxis, letter]

end PathCommand

open PathCommand

namespace IsConnector

variable {points : List (Point Number)}

theorem areRightAngled (h : IsConnector points) : AreRightAngled (ofPoints points) := by
  obtain ⟨a, b, c, d, rfl⟩ := List.length_eq_four.mp h.length
  have haligned : a.IsAligned b ∧ b.IsAligned c ∧ c.IsAligned d := by simpa using h.aligned
  exact ⟨a.x, a.y, _, _, _, rfl, isAlongAxis_between haligned.1,
    isAlongAxis_between haligned.2.1, isAlongAxis_between haligned.2.2⟩

/-- The text of a connector reads as one move and three steps along an axis. -/
theorem ofText?_pathData (h : IsConnector points) :
    ∃ commands, ofText? (pathData points) = some commands ∧ AreRightAngled commands :=
  ⟨_, ofText?_pathData_eq h.finite, h.areRightAngled.map _⟩

/-- The text of a connector has no letter of an oblique step. -/
theorem notMem_pathData (h : IsConnector points) : 'L' ∉ (pathData points).toList := by
  intro hmem
  obtain hblank | hnumeral | ⟨command, hcommand, hletter⟩ := mem_pathData h.finite hmem
  · contradiction
  · contradiction
  · obtain ⟨x, y, a, b, c, hpoints, ha, hb, hc⟩ := h.areRightAngled
    rw [hpoints] at hcommand
    simp only [List.mem_cons, List.not_mem_nil, or_false] at hcommand
    obtain rfl | rfl | rfl | rfl := hcommand
    · exact absurd hletter (by decide : 'L' ≠ 'M')
    · exact letter_ne_of_isAlongAxis ha hletter.symm
    · exact letter_ne_of_isAlongAxis hb hletter.symm
    · exact letter_ne_of_isAlongAxis hc hletter.symm

end IsConnector

section Paths

variable {α : Type} [Scalar α] {points : List (Point α)} {style : PathStyle}

theorem path_notMem_relationshipSymbols {target source : Point α} {c : Cardinality}
    {identifying : Bool} {subject : Option String} {symbols : List (Primitive α)}
    (h : relationshipSymbols target source c identifying subject = .ok symbols) :
    .path points style ∉ symbols := by
  obtain ⟨-, -, rfl⟩ := relationshipSymbols_eq_ok_iff.mp h
  unfold cardinalitySymbols
  split_ifs <;> simp

theorem path_notMem_hub (hub : Hub α) : .path points style ∉ hub.primitives := by
  simp [Hub.primitives, Hub.circle, Hub.underlines, Hub.label?]

end Paths

namespace Diagram

/-- A path from the connection point of the source of a relationship to the one of its target. -/
def RunsBetween (d : Diagram Number) (r : Relationship) (points : List (Point Number)) : Prop :=
  ∃ source target start finish, d.HasRect r.source.entity source ∧
    d.HasRect r.target.entity target ∧
    connectionPoint source target (some (relationshipSubject r)) = .ok start ∧
    connectionPoint target source (some (relationshipSubject r)) = .ok finish ∧
    points.head? = some start ∧ points.getLast? = some finish

/-- A path down from the anchor of the junction of a generalization. -/
def HangsFrom (d : Diagram Number) (g : Generalization) (points : List (Point Number)) : Prop :=
  ∃ hub, d.hubPart g = .ok hub ∧ points.head? = some hub.anchor

variable {d : Diagram Number} {block : Drawing Number} {points : List (Point Number)}
  {style : PathStyle}

theorem AddsBox.path_notMem {n : Node Number} (h : AddsBox n block) :
    .path points style ∉ block.primitives := by
  cases h <;> simp

theorem AddsRelationship.path {r : Relationship} (h : d.AddsRelationship r block)
    (hpath : .path points style ∈ block.primitives) :
    IsConnector points ∧ d.RunsBetween r points := by
  cases h with
  | error herror => simp at hpath
  | @block source target start finish line c symbols hsource htarget hstart hfinish hline hc
      hsymbols =>
    simp only [List.cons_append, List.mem_cons, List.mem_append, List.not_mem_nil, or_false,
      reduceCtorEq] at hpath
    obtain hline' | hsymbol := hpath
    · cases hline'
      obtain ⟨hhead, hlast⟩ := route_ends hline
      exact ⟨isConnector_route hline, source, target, start, finish, hsource, htarget, hstart,
        hfinish, hhead, hlast⟩
    · exact absurd hsymbol (path_notMem_relationshipSymbols hsymbols)

theorem AddsGeneralization.path {g : Generalization} (h : d.AddsGeneralization g block)
    (hpath : .path points style ∈ block.primitives) :
    IsConnector points ∧ d.HangsFrom g points := by
  cases h with
  | error herror => simp at hpath
  | @block generic hub connectors hgeneric hhub hconnectors =>
    rw [Drawing.primitives_append, List.mem_append] at hpath
    obtain hjunction | hconnector := hpath
    · exact absurd hjunction (path_notMem_hub hub)
    · obtain ⟨connector, hmem, hpath⟩ := List.mem_flatMap.mp hconnector
      obtain ⟨name, -, hadds⟩ := Pairing.exists_left_partner hconnectors hmem
      cases hadds with
      | error herror => simp at hpath
      | connector hcategory hpoints =>
        cases List.mem_singleton.mp hpath
        obtain ⟨hconnector, hhead⟩ := isConnector_categoryPoints hhub hpoints
        obtain ⟨n, hn, hrect⟩ := hgeneric
        exact ⟨hconnector, hub, hubPart_eq_ok_iff.mpr ⟨n, generic, hn, hrect, hhub⟩, hhead⟩

/-- The drawing of any diagram, its numbers finite or not: every path has four finite points and
every segment along an axis, and its text is one move and three steps along an axis. The path of a
relationship runs between the connection points of its two boxes, a path of a generalization starts
at the anchor of its junction, and no box has a path. -/
theorem draw_connectors {drawing : Drawing Number} (h : d.draw = .ok drawing) :
    (∀ points style, .path points style ∈ drawing.primitives → IsConnector points ∧
      (∃ commands, ofText? (pathData points) = some commands ∧ AreRightAngled commands) ∧
      'L' ∉ (pathData points).toList) ∧
    ∃ boxes relationships generalizations, d.HasBlocks boxes relationships generalizations ∧
      drawing = Drawing.join (boxes ++ relationships ++ generalizations) ∧
      (∀ box ∈ boxes, ∀ points style, .path points style ∉ box.primitives) ∧
      List.Forall₂ (fun r block => ∀ points style, .path points style ∈ block.primitives →
        d.RunsBetween r points) d.relationships relationships ∧
      List.Forall₂ (fun g block => ∀ points style, .path points style ∈ block.primitives →
        d.HangsFrom g points) d.generalizations generalizations := by
  obtain ⟨boxes, relationships, generalizations, hboxes, hrelationships, hgeneralizations, rfl⟩ :=
    draw_eq_ok_iff.mp h
  have hblocks := hasBlocks_of_map_eq hboxes hrelationships hgeneralizations
  have hnone : ∀ box ∈ boxes, ∀ points style, .path points style ∉ box.primitives := by
    intro box hbox points style
    obtain ⟨n, -, hadds⟩ := Pairing.exists_left_partner hblocks.boxes hbox
    exact hadds.path_notMem
  constructor
  · intro points style hpath
    have hconnector : IsConnector points := by
      obtain ⟨block, hblock, hpath⟩ := List.mem_flatMap.mp hpath
      rw [List.append_assoc, List.mem_append, List.mem_append] at hblock
      obtain hbox | hrelationship | hgeneralization := hblock
      · exact absurd hpath (hnone block hbox points style)
      · obtain ⟨r, -, hadds⟩ := Pairing.exists_left_partner hblocks.relationships hrelationship
        exact (hadds.path hpath).1
      · obtain ⟨g, -, hadds⟩ := Pairing.exists_left_partner hblocks.generalizations hgeneralization
        exact (hadds.path hpath).1
    exact ⟨hconnector, hconnector.ofText?_pathData, hconnector.notMem_pathData⟩
  · refine ⟨boxes, relationships, generalizations, hblocks, rfl, hnone, ?_, ?_⟩
    · exact hblocks.relationships.imp fun r block hadds points style hpath => (hadds.path hpath).2
    · exact hblocks.generalizations.imp fun g block hadds points style hpath => (hadds.path hpath).2

/-- Three entities, one of them infinitely far away: a relationship and one of two connectors are
drawn. -/
theorem draw_connectors_of_infinite_position :
    ∃ (d : Diagram Number) (drawing : Drawing Number), d.draw = .ok drawing ∧
      drawing.errors.length = 1 ∧
      drawing.primitives.filterMap (fun
        | .path points _ => some (pathData points)
        | _ => none) = ["M 301 208.333 H 200 V 41.6667 H 99", "M 50 84 V 142 H 350 V 200"] ∧
      ∀ points style, .path points style ∈ drawing.primitives → IsConnector points := by
  let d : Diagram Number :=
    { nodes :=
        [⟨⟨"A", [⟨"id", "n", false, false, none⟩], []⟩, some ⟨0, 0⟩, some ⟨100, 50⟩⟩,
          ⟨⟨"B", [], [⟨"a", "n", true, false, some ⟨"A", "id"⟩⟩]⟩, some ⟨300, 200⟩,
            some ⟨100, 50⟩⟩,
          ⟨⟨"C", [], []⟩, some ⟨.double (1 / 0), 0⟩, some ⟨100, 50⟩⟩]
      relationships := [⟨⟨"B", "a"⟩, ⟨"A", "id"⟩, none⟩]
      generalizations := [⟨"A", ["B", "C"], true, none⟩] }
  have hpaths : d.draw.toOption.map (fun drawing => (drawing.errors.length,
      drawing.primitives.filterMap fun
        | .path points _ => some (pathData points)
        | _ => none)) =
      some (1, ["M 301 208.333 H 200 V 41.6667 H 99", "M 50 84 V 142 H 350 V 200"]) := by
    decide +kernel
  cases hdraw : d.draw with
  | error fault =>
    rw [hdraw] at hpaths
    contradiction
  | ok drawing =>
    rw [hdraw] at hpaths
    obtain ⟨herrors, htexts⟩ := Prod.mk.inj (Option.some.inj hpaths)
    refine ⟨d, drawing, hdraw, herrors, htexts, ?_⟩
    intro points style hpath
    exact ((draw_connectors hdraw).1 points style hpath).1

end Diagram

end EntityDiagram
