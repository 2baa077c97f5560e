import EntityDiagram.Proofs.Drawing.Parts
import EntityDiagram.Scalar.Number
import Mathlib.Data.List.Forall2
import Mathlib.Data.List.InsertIdx

/-! How far a failure reaches. A drawing consists of one block for every entity, every relationship
and every generalization, in this order. A part that cannot be drawn leaves one error in the place
of its primitives and changes no other block, so a relationship that is taken away takes its own
block with it and nothing else. -/
namespace EntityDiagram

namespace Drawing

variable {α β : Type} {f : β → Except ArithmeticFault (Drawing α)} {l : List β}

/-- Parts that all have a drawing, listed beside their drawings. -/
theorem map_eq_map_ok_iff {drawings : List (Drawing α)} :
    l.map f = drawings.map .ok ↔ List.Forall₂ (fun b drawing => f b = .ok drawing) l drawings := by
  rw [← List.forall₂_eq_eq_eq, List.forall₂_map_left_iff, List.forall₂_map_right_iff]

end Drawing

namespace Diagram

variable {α : Type} [Scalar α]

/-- The rectangle of the first entity of a name. -/
def HasRect (d : Diagram α) (name : String) (rect : Rect α) : Prop :=
  ∃ n, d.node? name = some n ∧ n.rect = .ok rect

/-- What an entity adds to a drawing: its box, or the error that it has no rectangle. -/
inductive AddsBox (n : Node α) : Drawing α → Prop
  | box {rect : Rect α} (hrect : n.rect = .ok rect) : AddsBox n ⟨[.box (n.boxIn rect)], []⟩
  | error {e : PartError α} (herror : n.rect = .error (.part e)) : AddsBox n ⟨[], [e]⟩

/-- What a relationship adds to a drawing: its path, its symbols and its label, or one error. -/
inductive AddsRelationship (d : Diagram α) (r : Relationship) : Drawing α → Prop
  | block {source target : Rect α} {start finish : Point α} {line : Route α} {c : Cardinality}
      {symbols : List (Primitive α)}
      (hsource : d.HasRect r.source.entity source) (htarget : d.HasRect r.target.entity target)
      (hstart : connectionPoint source target (some (relationshipSubject r)) = .ok start)
      (hfinish : connectionPoint target source (some (relationshipSubject r)) = .ok finish)
      (hline : route start finish (some (relationshipSubject r)) = .ok line)
      (hc : d.schema.cardinality r = .ok c)
      (hsymbols : relationshipSymbols finish start c (d.schema.isIdentifying r)
        (some (relationshipSubject r)) = .ok symbols) :
      AddsRelationship d r
        ⟨.path line.points
            (if d.schema.isIdentifying r then .identifying else .nonIdentifying) ::
          symbols ++ [.text line.labelPoint (relationshipLabel r) .middle .relationshipLabel], []⟩
  | error {e : PartError α} (herror : d.relationshipPart r = .error (.part e)) :
      AddsRelationship d r ⟨[], [e]⟩

/-- What a category adds below a junction: its connector, or one error. -/
inductive AddsConnector (d : Diagram α) (g : Generalization) (hub : Hub α) (name : String) :
    Drawing α → Prop
  | connector {category : Rect α} {points : List (Point α)} (hcategory : d.HasRect name category)
      (hpoints : categoryPoints hub.anchor category
        (some (generalizationSubject g ++ " -> " ++ name)) = .ok points) :
      AddsConnector d g hub name ⟨[.path points .generalization], []⟩
  | error {e : PartError α} (herror : d.connectorPart g hub name = .error (.part e)) :
      AddsConnector d g hub name ⟨[], [e]⟩

/-- What a generalization adds to a drawing: its junction and what every category adds, or one
error when it has no junction. -/
inductive AddsGeneralization (d : Diagram α) (g : Generalization) : Drawing α → Prop
  | block {generic : Rect α} {hub : Hub α} {connectors : List (Drawing α)}
      (hgeneric : d.HasRect g.generic generic)
      (hhub : Hub.below generic g.complete g.discriminator (some (generalizationSubject g)) =
        .ok hub)
      (hconnectors : List.Forall₂ (d.AddsConnector g hub) g.categories connectors) :
      AddsGeneralization d g (⟨hub.primitives, []⟩ ++ Drawing.join connectors)
  | error {e : PartError α} (herror : d.hubPart g = .error (.part e)) :
      AddsGeneralization d g ⟨[], [e]⟩

/-- The blocks of a drawing, each kind in order of declaration. -/
structure HasBlocks (d : Diagram α) (boxes relationships generalizations : List (Drawing α)) :
    Prop where
  boxes : List.Forall₂ AddsBox d.nodes boxes
  relationships : List.Forall₂ d.AddsRelationship d.relationships relationships
  generalizations : List.Forall₂ d.AddsGeneralization d.generalizations generalizations

variable {d : Diagram α} {block : Drawing α}

omit [Scalar α] in
theorem addsBox_of_eq_ok {n : Node α} (h : Drawing.ofPart (boxPart n) = .ok block) :
    AddsBox n block := by
  rcases Drawing.ofPart_eq_ok_iff.mp h with ⟨primitives, hpart, rfl⟩ | ⟨e, hpart, rfl⟩
  · obtain ⟨rect, hrect, rfl⟩ := map_eq_ok_iff.mp hpart
    exact .box hrect
  · unfold boxPart at hpart
    cases hrect : n.rect with
    | error failure =>
      rw [hrect] at hpart
      cases hpart
      exact .error hrect
    | ok rect =>
      rw [hrect] at hpart
      contradiction

theorem addsRelationship_of_eq_ok {r : Relationship}
    (h : Drawing.ofPart (d.relationshipPart r) = .ok block) : d.AddsRelationship r block := by
  rcases Drawing.ofPart_eq_ok_iff.mp h with ⟨primitives, hpart, rfl⟩ | ⟨e, hpart, rfl⟩
  · obtain ⟨source, target, c, sourceRect, targetRect, start, finish, line, symbols, hsource,
      htarget, hc, hsourceRect, htargetRect, hstart, hfinish, hline, hsymbols, rfl⟩ :=
      relationshipPart_eq_ok_iff.mp hpart
    exact .block ⟨source, hsource, hsourceRect⟩ ⟨target, htarget, htargetRect⟩ hstart hfinish hline
      hc hsymbols
  · exact .error hpart

theorem addsConnector_of_eq_ok {g : Generalization} {hub : Hub α} {name : String}
    (h : Drawing.ofPart (d.connectorPart g hub name) = .ok block) :
    d.AddsConnector g hub name block := by
  rcases Drawing.ofPart_eq_ok_iff.mp h with ⟨primitives, hpart, rfl⟩ | ⟨e, hpart, rfl⟩
  · obtain ⟨n, rect, points, hn, hrect, hpoints, rfl⟩ := connectorPart_eq_ok_iff.mp hpart
    exact .connector ⟨n, hn, hrect⟩ hpoints
  · exact .error hpart

theorem addsGeneralization_of_eq_ok {g : Generalization}
    (h : d.generalizationDrawing g = .ok block) : d.AddsGeneralization g block := by
  unfold generalizationDrawing at h
  split at h
  · rename_i failure hfailure
    rcases Drawing.ofPart_eq_ok_iff.mp h with ⟨primitives, hpart, -⟩ | ⟨e, hpart, rfl⟩
    · contradiction
    · cases hpart
      exact .error hfailure
  · rename_i hub hhub
    obtain ⟨drawings, hdrawings, rfl⟩ := Drawing.collect_eq_ok_iff.mp h
    obtain ⟨junction, connectors, rfl, hjunction, hconnectors⟩ :=
      List.map_eq_cons_iff.mp hdrawings.symm
    cases hjunction
    have hconnectors := Drawing.map_eq_map_ok_iff.mp hconnectors.symm
    obtain ⟨n, rect, hn, hrect, hbelow⟩ := hubPart_eq_ok_iff.mp hhub
    exact .block ⟨n, hn, hrect⟩ hbelow (hconnectors.imp fun _ _ => addsConnector_of_eq_ok)

/-- A diagram has a drawing when each of its parts has a block. -/
theorem draw_eq_ok_iff {drawing : Drawing α} :
    d.draw = .ok drawing ↔ ∃ boxes relationships generalizations,
      d.nodes.map (fun n => Drawing.ofPart (boxPart n)) = boxes.map .ok ∧
      d.relationships.map (fun r => Drawing.ofPart (d.relationshipPart r)) =
        relationships.map .ok ∧
      d.generalizations.map d.generalizationDrawing = generalizations.map .ok ∧
      drawing = Drawing.join (boxes ++ relationships ++ generalizations) := by
  rw [draw, Drawing.collect_eq_ok_iff]
  constructor
  · rintro ⟨blocks, hblocks, rfl⟩
    obtain ⟨front, generalizations, rfl, hfront, hgeneralizations⟩ :=
      List.map_eq_append_iff.mp hblocks.symm
    obtain ⟨boxes, relationships, rfl, hboxes, hrelationships⟩ := List.map_eq_append_iff.mp hfront
    exact ⟨boxes, relationships, generalizations, hboxes.symm, hrelationships.symm,
      hgeneralizations.symm, rfl⟩
  · rintro ⟨boxes, relationships, generalizations, hboxes, hrelationships, hgeneralizations, rfl⟩
    refine ⟨_, ?_, rfl⟩
    rw [List.map_append, List.map_append, hboxes, hrelationships, hgeneralizations]

/-- An entity with a rectangle has its box in every drawing. -/
theorem box_mem_of_draw_eq_ok {drawing : Drawing α} (h : d.draw = .ok drawing) {n : Node α}
    (hn : n ∈ d.nodes) {rect : Rect α} (hrect : n.rect = .ok rect) :
    .box (n.boxIn rect) ∈ drawing.primitives := by
  obtain ⟨boxes, relationships, generalizations, hboxes, -, -, rfl⟩ := draw_eq_ok_iff.mp h
  have hblock : Drawing.ofPart (boxPart n) = .ok ⟨[.box (n.boxIn rect)], []⟩ := by
    rw [boxPart_eq_ok hrect]
    rfl
  have hmem : Drawing.ofPart (boxPart n) ∈ boxes.map Except.ok :=
    hboxes ▸ List.mem_map_of_mem hn
  obtain ⟨block, hblock', hsame⟩ := List.mem_map.mp hmem
  obtain rfl := Except.ok.inj (hsame.trans hblock)
  have hmem : _ ∈ boxes ++ relationships ++ generalizations :=
    List.mem_append_left _ (List.mem_append_left _ hblock')
  exact List.mem_flatMap.mpr ⟨_, hmem, List.mem_cons_self⟩

theorem hasBlocks_of_map_eq {boxes relationships generalizations : List (Drawing α)}
    (hboxes : d.nodes.map (fun n => Drawing.ofPart (boxPart n)) = boxes.map .ok)
    (hrelationships : d.relationships.map (fun r => Drawing.ofPart (d.relationshipPart r)) =
      relationships.map .ok)
    (hgeneralizations : d.generalizations.map d.generalizationDrawing = generalizations.map .ok) :
    d.HasBlocks boxes relationships generalizations := by
  constructor
  · exact (Drawing.map_eq_map_ok_iff.mp hboxes).imp fun _ _ => addsBox_of_eq_ok
  · exact (Drawing.map_eq_map_ok_iff.mp hrelationships).imp fun _ _ => addsRelationship_of_eq_ok
  · exact (Drawing.map_eq_map_ok_iff.mp hgeneralizations).imp fun _ _ =>
      addsGeneralization_of_eq_ok

/-- The diagram without the relationship at an index. -/
def withoutRelationship (d : Diagram α) (index : Nat) : Diagram α :=
  { d with relationships := d.relationships.eraseIdx index }

/-- However many parts of a diagram cannot be drawn, a drawing consists of the blocks of its
entities, relationships and generalizations in order, each of them whole or one error; without one
of its relationships it consists of the same blocks but the one of that relationship. -/
theorem draw_isolates_failures {drawing : Drawing α} (h : d.draw = .ok drawing) :
    ∃ boxes relationships generalizations,
      d.HasBlocks boxes relationships generalizations ∧
      drawing = Drawing.join (boxes ++ relationships ++ generalizations) ∧
      ∀ index < d.relationships.length, (d.withoutRelationship index).draw =
        .ok (Drawing.join (boxes ++ relationships.eraseIdx index ++ generalizations)) := by
  obtain ⟨boxes, relationships, generalizations, hboxes, hrelationships, hgeneralizations, rfl⟩ :=
    draw_eq_ok_iff.mp h
  refine ⟨boxes, relationships, generalizations,
    hasBlocks_of_map_eq hboxes hrelationships hgeneralizations, rfl, ?_⟩
  intro index _
  -- Parts are drawn from the entities alone, so no other part misses the relationship.
  refine draw_eq_ok_iff.mpr ⟨boxes, _, generalizations, hboxes, ?_, hgeneralizations, rfl⟩
  change (d.relationships.eraseIdx index).map
    (fun r => Drawing.ofPart (d.relationshipPart r)) = _
  rw [← List.eraseIdx_map, hrelationships, List.eraseIdx_map]

/-- Three entities, one of them nowhere: a relationship is drawn between two that are reported, and
of a generalization only one connector is missing. -/
theorem draw_isolates_failures_of_missing_position :
    ∃ (d : Diagram Number) (drawing : Drawing Number), d.draw = .ok drawing ∧
      drawing.errors.length = 5 ∧
      ∃ boxes relationships generalizations, d.HasBlocks boxes relationships generalizations ∧
        (d.withoutRelationship 0).draw =
          .ok (Drawing.join (boxes ++ relationships.eraseIdx 0 ++ generalizations)) := by
  let d : Diagram Number :=
    { nodes :=
        [⟨⟨"A", [⟨"id", "n", false, false, none⟩], []⟩, some ⟨0, 0⟩, some ⟨100, 50⟩⟩,
          ⟨⟨"B", [], [⟨"a", "n", true, false, some ⟨"A", "id"⟩⟩]⟩, some ⟨300, 0⟩, some ⟨100, 50⟩⟩,
          ⟨⟨"C", [], [⟨"a", "n", false, true, some ⟨"A", "id"⟩⟩]⟩, none, some ⟨100, 50⟩⟩]
      relationships :=
        [⟨⟨"C", "a"⟩, ⟨"A", "id"⟩, none⟩, ⟨⟨"B", "a"⟩, ⟨"A", "id"⟩, none⟩,
          ⟨⟨"B", "b"⟩, ⟨"A", "id"⟩, none⟩]
      generalizations := [⟨"A", ["B", "C"], true, some "kind"⟩, ⟨"D", ["A"], false, none⟩] }
  have herrors : d.draw.toOption.map (·.errors.length) = some 5 := by decide +kernel
  cases hdraw : d.draw with
  | error fault =>
    rw [hdraw] at herrors
    contradiction
  | ok drawing =>
    rw [hdraw] at herrors
    obtain ⟨boxes, relationships, generalizations, hblocks, -, hwithout⟩ :=
      draw_isolates_failures hdraw
    exact ⟨d, drawing, hdraw, Option.some.inj herrors, boxes, relationships, generalizations,
      hblocks, hwithout 0 (by decide)⟩

end Diagram

end EntityDiagram
