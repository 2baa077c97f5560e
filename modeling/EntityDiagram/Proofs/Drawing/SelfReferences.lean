import EntityDiagram.Proofs.Drawing.Subjects
import EntityDiagram.Proofs.Geometry.Junctions
import EntityDiagram.Proofs.Geometry.Routes
import EntityDiagram.Proofs.Layout.Cells

/-! What cannot be drawn when nothing is in the way. In exact arithmetic, a valid diagram whose
entities are apart is drawn completely but for relationships from an entity to itself: such a
relationship has no direction, and is one error about the center of the entity. Every other subject
has all that belongs to it. -/
namespace EntityDiagram

/-- A relationship from an entity to itself. -/
def Relationship.isSelfReference (r : Relationship) : Bool := r.source.entity = r.target.entity

/-- The self reference that a block is about. -/
def Subject.selfReference? : Subject → Option Relationship
  | relationship r => if r.isSelfReference then some r else none
  | _ => none

theorem Subject.filterMap_selfReference?_map_relationship (relationships : List Relationship) :
    (relationships.map Subject.relationship).filterMap Subject.selfReference? =
      relationships.filter (·.isSelfReference) := by
  induction relationships with
  | nil => rfl
  | cons r rest ih =>
    rw [List.map_cons, List.filterMap_cons, List.filter_cons, ih, Subject.selfReference?]
    cases r.isSelfReference <;> rfl

/-- Of all that a drawing can be about, only relationships are self references. -/
theorem Schema.filterMap_selfReference?_subjects (s : Schema) :
    s.subjects.filterMap Subject.selfReference? = s.relationships.filter (·.isSelfReference) := by
  have hentities :
      (s.entities.map (Subject.entity ·.name)).filterMap Subject.selfReference? = [] := by
    rw [List.filterMap_eq_nil_iff]
    intro subject hsubject
    obtain ⟨e, -, rfl⟩ := List.mem_map.mp hsubject
    rfl
  have hgeneralizations : (s.generalizations.flatMap fun g => Subject.junction g ::
      g.categories.map (Subject.connector g)).filterMap Subject.selfReference? = [] := by
    rw [List.filterMap_eq_nil_iff]
    intro subject hsubject
    obtain ⟨g, -, hsubject⟩ := List.mem_flatMap.mp hsubject
    rcases List.mem_cons.mp hsubject with rfl | hsubject
    · rfl
    · obtain ⟨category, -, rfl⟩ := List.mem_map.mp hsubject
      rfl
  rw [subjects, List.filterMap_append, List.filterMap_append, hentities, hgeneralizations,
    List.nil_append, List.append_nil, Subject.filterMap_selfReference?_map_relationship]

namespace Diagram

variable {α : Type} [Scalar α]

/-- The error of a relationship both of whose ends are in one rectangle. -/
def sharedCenterError (r : Relationship) (rect : Rect α) : PartError α :=
  .geometry ⟨.sharedCenter, some (relationshipSubject r), some [rect.center.x, rect.center.y]⟩

/-- The error of a self reference, about the center of its entity. -/
def LosesReference (d : Diagram α) (r : Relationship) (e : PartError α) : Prop :=
  ∃ rect, d.HasRect r.source.entity rect ∧ e = sharedCenterError r rect

/-- What is drawn for a subject that is not left out. -/
inductive Depicts (d : Diagram Rat) : Subject → List (Primitive Rat) → Prop
  /-- An entity is its box. -/
  | entity {n : Node Rat} {rect : Rect Rat} (hn : n ∈ d.nodes) (hrect : n.rect = .ok rect) :
      Depicts d (.entity n.name) [.box (n.boxIn rect)]
  /-- A relationship is a line between the two boxes, with what its cardinality asks for at the
  ends: a dot and a letter at the target, a square at the source. Its label stands above the middle.
  -/
  | relationship {r : Relationship} {source target : Rect Rat} {line : Route Rat} {c : Cardinality}
      {letter : Point Rat} (hsource : d.HasRect r.source.entity source)
      (htarget : d.HasRect r.target.entity target)
      (hstart : connectionPoint source target (some (relationshipSubject r)) = .ok line.start)
      (hfinish : connectionPoint target source (some (relationshipSubject r)) = .ok line.finish)
      (hturns : line.IsHorizontal ∨ line.IsVertical)
      (hmiddle : line.midpoint = Point.middle line.start line.finish)
      (hc : d.schema.cardinality r = .ok c) :
      Depicts d (.relationship r)
        (.path [line.start, line.firstBend, line.secondBend, line.finish]
            (if d.schema.isIdentifying r then .identifying else .nonIdentifying) ::
          (if c.optional || c.many then [.circle line.finish 4 .cardinalityDot] else []) ++
          (c.glyph?.toList.map fun glyph => .text letter glyph .start .cardinality) ++
          (if c.optional && !d.schema.isIdentifying r then [.optionalMarker line.start 8]
            else []) ++
          [.text ⟨line.midpoint.x, line.midpoint.y - 12⟩ (relationshipLabel r) .middle
            .relationshipLabel])
  /-- A junction is a circle below the generic entity over one line or two, with the discriminator
  beside it. -/
  | junction {g : Generalization} {generic : Rect Rat} {center : Point Rat}
      (hgeneric : d.HasRect g.generic generic) (hcenter : RoundsHalfUp generic.center.x center.x)
      (hbottom : RoundsHalfUp generic.bottom (center.y - 18)) :
      Depicts d (.junction g)
        (.circle center 8 .generalizationJunction ::
          .underline ⟨center.x - 20, center.y + 16⟩ ⟨center.x + 20, center.y + 16⟩ ::
          (if g.complete then
            [.underline ⟨center.x - 20, center.y + 22⟩ ⟨center.x + 20, center.y + 22⟩] else []) ++
          (g.discriminator.filter (· ≠ "")).toList.map fun content =>
            .text ⟨center.x + 20, center.y + 4⟩ content .start .discriminator)
  /-- A connector leads from the first line of the junction to its category. -/
  | connector {g : Generalization} {name : String} {generic category : Rect Rat}
      {center : Point Rat} {points : List (Point Rat)} {level x y : Rat}
      (hgeneric : d.HasRect g.generic generic) (hcenter : RoundsHalfUp generic.center.x center.x)
      (hbottom : RoundsHalfUp generic.bottom (center.y - 18)) (hcategory : d.HasRect name category)
      (hleads : LeadsTo ⟨center.x, center.y + 16⟩ category points level x y) :
      Depicts d (.connector g name) [.path points .generalization]

/-- A block with all that belongs to its subject, or that of a self reference, which is one error.
-/
inductive LosesSelfReferences (d : Diagram Rat) : Subject × Drawing Rat → Prop
  | drawn {subject : Subject} {primitives : List (Primitive Rat)}
      (hsubject : subject.selfReference? = none) (hdepicts : d.Depicts subject primitives) :
      LosesSelfReferences d (subject, ⟨primitives, []⟩)
  | lost {r : Relationship} {e : PartError Rat} (hself : r.isSelfReference = true)
      (he : d.LosesReference r e) : LosesSelfReferences d (.relationship r, ⟨[], [e]⟩)

/-- The errors of a drawing that loses self references only are those of its self references, in
their order. -/
theorem forall₂_errors {d : Diagram Rat} {blocks : List (Subject × Drawing Rat)}
    (h : ∀ block ∈ blocks, d.LosesSelfReferences block) :
    List.Forall₂ d.LosesReference ((blocks.map (·.1)).filterMap Subject.selfReference?)
      (Drawing.join (blocks.map (·.2))).errors := by
  induction blocks with
  | nil => exact .nil
  | cons block rest ih =>
    have hrest := ih fun block hblock => h block (List.mem_cons_of_mem _ hblock)
    rw [List.map_cons, List.map_cons, List.filterMap_cons, Drawing.join_cons,
      Drawing.errors_append]
    cases h block List.mem_cons_self with
    | drawn hsubject hdepicts =>
      simp only [hsubject]
      exact hrest
    | lost hself he =>
      simp only [Subject.selfReference?, hself, if_true]
      exact .cons he hrest

section Exact

variable {d : Diagram Rat} {gap : Rat}

theorem IsSpread.exists_hasRect (h : d.IsSpread gap) {name : String}
    (hname : name ∈ d.schema.entities.map (·.name)) :
    ∃ rect, d.HasRect name rect ∧ 0 ≤ rect.width ∧ 0 ≤ rect.height := by
  obtain ⟨n, hn⟩ := Option.isSome_iff_exists.mp ((d.isSome_node?_iff name).mpr hname)
  obtain ⟨rect, hrect, hsize⟩ := h.exists_rect n (List.mem_of_find?_eq_some hn)
  exact ⟨rect, ⟨n, hn, hrect⟩, hsize⟩

/-- The symbols at the target, one after the other. -/
theorem cardinalitySymbols_eq (target source : Point Rat) (c : Cardinality) :
    cardinalitySymbols target source c =
      (if c.optional || c.many then [.circle target 4 .cardinalityDot] else []) ++
        c.glyph?.toList.map fun glyph =>
          .text (glyphPoint target source) glyph .start .cardinality := by
  rcases c with ⟨_ | _, _ | _⟩ <;> rfl

/-- A relationship that has primitives has all that belongs to it. -/
theorem depicts_of_relationshipPart_eq_ok {r : Relationship} {primitives : List (Primitive Rat)}
    (h : d.relationshipPart r = .ok primitives) : d.Depicts (.relationship r) primitives := by
  obtain ⟨n, m, c, source, target, start, finish, line, symbols, hn, hm, hc, hsource, htarget,
    hstart, hfinish, hline, hsymbols, rfl⟩ := relationshipPart_eq_ok_iff.mp h
  obtain rfl := Except.ok.inj ((route_exact start finish _).symm.trans hline)
  obtain ⟨-, -, rfl⟩ := relationshipSymbols_eq_ok_iff.mp hsymbols
  have hturns := Route.isHorizontal_or_isVertical_between start finish
  have hmiddle := (Route.midpoint_between start finish).1
  obtain ⟨hlinestart, hlinefinish⟩ := Route.ends_between start finish
  generalize Route.between start finish = line at hturns hmiddle hlinestart hlinefinish ⊢
  subst hlinestart hlinefinish
  rw [cardinalitySymbols_eq]
  exact .relationship ⟨n, hn, hsource⟩ ⟨m, hm, htarget⟩ hstart hfinish hturns hmiddle hc

/-- Between different entities that are apart a relationship is drawn. -/
theorem exists_relationshipPart_eq_ok (h : d.IsSpread gap) (hgap : 0 < gap)
    (names : d.schema.HasDistinctNames) {r : Relationship} (source : d.schema.HasAttribute r.source)
    (target : d.schema.HasAttribute r.target) (hself : r.isSelfReference = false) :
    ∃ primitives, d.relationshipPart r = .ok primitives := by
  have hne : r.source.entity ≠ r.target.entity := of_decide_eq_false hself
  obtain ⟨s, ⟨n, hn, hs⟩, hssize⟩ := h.exists_hasRect source.mem_entities
  obtain ⟨t, ⟨m, hm, ht⟩, htsize⟩ := h.exists_hasRect target.mem_entities
  obtain ⟨e, he, a, ha, hsource⟩ := source
  have hapart : Rect.ApartBy gap s t := h.apart _ _ s t hne ⟨n, hn, hs⟩ ⟨m, hm, ht⟩
  obtain ⟨start, finish, hstart, hfinish, hsymbols⟩ :=
    hapart.exists_ends hgap hssize htsize (some (relationshipSubject r))
  obtain ⟨symbols, hsymbols⟩ := hsymbols ⟨a.optional, a.many⟩ (d.schema.isIdentifying r)
  exact ⟨_, relationshipPart_eq_ok_iff.mpr ⟨n, m, _, s, t, start, finish, _, symbols, hn, hm,
    names.cardinality_eq he ha hsource target, hs, ht, hstart, hfinish, route_exact _ _ _, hsymbols,
    rfl⟩⟩

/-- A self reference has no direction. -/
theorem exists_relationshipPart_eq_error (h : d.IsSpread gap) (names : d.schema.HasDistinctNames)
    {r : Relationship} (source : d.schema.HasAttribute r.source)
    (target : d.schema.HasAttribute r.target) (hself : r.isSelfReference = true) :
    ∃ e, d.LosesReference r e ∧ d.relationshipPart r = .error (.part e) := by
  have heq : r.source.entity = r.target.entity := of_decide_eq_true hself
  obtain ⟨rect, ⟨n, hn, hrect⟩, -⟩ := h.exists_hasRect source.mem_entities
  obtain ⟨e, he, a, ha, hsource⟩ := source
  refine ⟨sharedCenterError r rect, ⟨rect, ⟨n, hn, hrect⟩, rfl⟩, ?_⟩
  rw [relationshipPart, ← heq, requireNode_eq_ok_iff.mpr hn,
    names.cardinality_eq he ha hsource target]
  change (n.rect >>= _) = _
  rw [hrect]
  change (connectionPoint rect rect _ >>= _) = _
  rw [Rect.connectionPoint_self]
  rfl

theorem exists_hubPart_eq_ok (h : d.IsSpread gap) {g : Generalization}
    (hg : d.schema.JoinsEntities g) : ∃ hub, d.hubPart g = .ok hub := by
  obtain ⟨rect, ⟨n, hn, hrect⟩, -⟩ := h.exists_hasRect hg.generic
  obtain ⟨hub, hhub, -⟩ := Hub.exists_below_exact rect g.complete g.discriminator
    (some (generalizationSubject g))
  exact ⟨hub, hubPart_eq_ok_iff.mpr ⟨n, rect, hn, hrect, hhub⟩⟩

theorem exists_connectorPart_eq_ok (h : d.IsSpread gap) {g : Generalization}
    (hg : d.schema.JoinsEntities g) (hub : Hub Rat) {name : String} (hname : name ∈ g.categories) :
    ∃ connector, d.connectorPart g hub name = .ok [connector] := by
  obtain ⟨rect, ⟨n, hn, hrect⟩, -⟩ := h.exists_hasRect (hg.categories name hname).1
  obtain ⟨points, -, -, -, hpoints, -⟩ := LeadsTo.exists_categoryPoints_exact hub.anchor rect
    (some (generalizationSubject g ++ " -> " ++ name))
  exact ⟨_, connectorPart_eq_ok_iff.mpr ⟨n, rect, points, hn, hrect, hpoints, rfl⟩⟩

theorem underlineY_eq (hub : Hub Rat) : hub.underlineY = hub.center.y + 16 := by
  change hub.center.y + 8 + 8 = _
  ring

theorem underlines_eq (hub : Hub Rat) : hub.underlines =
    .underline ⟨hub.center.x - 20, hub.center.y + 16⟩ ⟨hub.center.x + 20, hub.center.y + 16⟩ ::
      if hub.complete then
        [.underline ⟨hub.center.x - 20, hub.center.y + 22⟩ ⟨hub.center.x + 20, hub.center.y + 22⟩]
      else [] := by
  have hsecond : hub.center.y + 16 + 6 = hub.center.y + 22 := by ring
  unfold Hub.underlines Hub.underlineYs
  rw [underlineY_eq, hsecond]
  split_ifs <;> rfl

theorem label?_eq (hub : Hub Rat) : hub.label? = (hub.discriminator.filter (· ≠ "")).map
    fun content => .text ⟨hub.center.x + 20, hub.center.y + 4⟩ content .start .discriminator := by
  have hx : hub.center.x + Hub.radius + 12 = hub.center.x + 20 := by
    change hub.center.x + 8 + 12 = _
    ring
  rw [Hub.label?, hx]

/-- A junction with primitives has all that belongs to it, and so has every connector below it. -/
theorem depicts_of_hubPart_eq_ok {g : Generalization} {hub : Hub Rat} (h : d.hubPart g = .ok hub) :
    d.Depicts (.junction g) hub.primitives ∧ ∀ name primitives,
      d.connectorPart g hub name = .ok primitives → d.Depicts (.connector g name) primitives := by
  obtain ⟨n, generic, hn, hgeneric, hhub⟩ := hubPart_eq_ok_iff.mp h
  obtain ⟨hub', hhub', hbelow⟩ := Hub.exists_below_exact generic g.complete g.discriminator
    (some (generalizationSubject g))
  obtain rfl := Except.ok.inj (hhub'.symm.trans hhub)
  obtain ⟨hcomplete, hdiscriminator⟩ := Hub.below_eq_ok hhub
  constructor
  · rw [Hub.primitives, underlines_eq, label?_eq, hcomplete, hdiscriminator, Option.toList_map]
    exact .junction ⟨n, hn, hgeneric⟩ hbelow.center hbelow.bottom
  · intro name primitives hpart
    obtain ⟨m, category, points, hm, hcategory, hpoints, rfl⟩ := connectorPart_eq_ok_iff.mp hpart
    obtain ⟨points', level, x, y, hpoints', hleads⟩ :=
      LeadsTo.exists_categoryPoints_exact hub'.anchor category
        (some (generalizationSubject g ++ " -> " ++ name))
    obtain rfl := Except.ok.inj (hpoints'.symm.trans hpoints)
    rw [Hub.anchor, underlineY_eq] at hleads
    exact .connector ⟨n, hn, hgeneric⟩ hbelow.center hbelow.bottom ⟨m, hm, hcategory⟩ hleads

/-- With its junction a generalization has a block for each category. -/
theorem map_fst_generalizationParts (h : d.IsSpread gap) {g : Generalization}
    (hg : d.schema.JoinsEntities g) : (d.generalizationParts g).map (·.1) =
      .junction g :: g.categories.map (.connector g) := by
  obtain ⟨hub, hhub⟩ := exists_hubPart_eq_ok h hg
  rw [generalizationParts, hhub, List.map_cons, List.map_map]
  rfl

/-- A valid diagram whose entities are apart has a part for each subject of its schema. -/
theorem map_fst_parts (h : d.IsSpread gap) (valid : d.schema.violation? = none) :
    d.parts.map (·.1) = d.schema.subjects := by
  obtain ⟨-, -, joins, -⟩ := d.schema.violation?_eq_none_iff.mp valid
  have hgeneralizations : d.generalizations.flatMap (fun g => (d.generalizationParts g).map (·.1)) =
      d.generalizations.flatMap fun g => .junction g :: g.categories.map (.connector g) :=
    List.flatMap_congr fun g hg => map_fst_generalizationParts h (joins g hg)
  rw [parts, Schema.subjects, List.map_append, List.map_append, List.map_flatMap, hgeneralizations,
    List.map_map, List.map_map, schema, List.map_map]
  rfl

/-- Every part of a valid diagram whose entities are apart is drawn, or is a self reference. -/
theorem losesSelfReferences_of_mem_parts (h : d.IsSpread gap) (hgap : 0 < gap)
    (valid : d.schema.violation? = none) {subject : Subject} {block : Drawing Rat}
    (hpart : (subject, .ok block) ∈ d.parts) : d.LosesSelfReferences (subject, block) := by
  obtain ⟨names, ends, joins, -⟩ := d.schema.violation?_eq_none_iff.mp valid
  rw [parts, List.append_assoc, List.mem_append, List.mem_append] at hpart
  rcases hpart with hbox | hrelationship | hgeneralization
  · obtain ⟨n, hn, heq⟩ := List.mem_map.mp hbox
    obtain ⟨rect, hrect, -⟩ := h.exists_rect n hn
    rw [boxPart_eq_ok hrect] at heq
    cases heq
    exact .drawn rfl (.entity hn hrect)
  · obtain ⟨r, hr, heq⟩ := List.mem_map.mp hrelationship
    obtain ⟨source, target⟩ := ends r hr
    cases hself : r.isSelfReference with
    | false =>
      obtain ⟨primitives, hpart⟩ := exists_relationshipPart_eq_ok h hgap names source target hself
      rw [hpart] at heq
      cases heq
      have hsubject : (Subject.relationship r).selfReference? = none := by
        simp [Subject.selfReference?, hself]
      exact .drawn hsubject (depicts_of_relationshipPart_eq_ok hpart)
    | true =>
      obtain ⟨e, he, hpart⟩ := exists_relationshipPart_eq_error h names source target hself
      rw [hpart] at heq
      cases heq
      exact .lost hself he
  · obtain ⟨g, hg, hmem⟩ := List.mem_flatMap.mp hgeneralization
    obtain ⟨hub, hhub⟩ := exists_hubPart_eq_ok h (joins g hg)
    obtain ⟨hjunction, hconnectors⟩ := depicts_of_hubPart_eq_ok hhub
    rw [generalizationParts, hhub] at hmem
    rcases List.mem_cons.mp hmem with heq | hconnector
    · cases heq
      exact .drawn rfl hjunction
    · obtain ⟨name, hname, heq⟩ := List.mem_map.mp hconnector
      obtain ⟨connector, hpart⟩ := exists_connectorPart_eq_ok h (joins g hg) hub hname
      rw [hpart] at heq
      cases heq
      exact .drawn rfl (hconnectors name _ hpart)

/-- The drawing of a valid diagram whose entities are apart has a block for each subject of the
schema, and all but those of self references are drawn. -/
theorem exists_blocks_of_isSpread (h : d.IsSpread gap) (hgap : 0 < gap)
    (valid : d.schema.violation? = none) {drawing : Drawing Rat} (hdraw : d.draw = .ok drawing) :
    ∃ blocks, d.Draws drawing blocks ∧ blocks.map (·.1) = d.schema.subjects ∧
      ∀ block ∈ blocks, d.LosesSelfReferences block := by
  obtain ⟨blocks, hblocks⟩ := exists_draws hdraw
  refine ⟨blocks, hblocks, ?_, ?_⟩
  · rw [← map_fst_parts h valid, hblocks.parts, List.map_map]
    rfl
  · intro block hblock
    refine losesSelfReferences_of_mem_parts h hgap valid ?_
    rw [hblocks.parts]
    exact List.mem_map_of_mem hblock

end Exact

end Diagram

end EntityDiagram
