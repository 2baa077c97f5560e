import EntityDiagram.Proofs.Drawing.KnownNames

/-! What the parts of a drawing consist of. Boxes come first, one for every entity with a rectangle;
relationships and generalizations add no box. Where no name is missing and every entity has its
place, every entity has its box and only geometry can fail. -/
namespace EntityDiagram

/-- The box of an entity. -/
def Primitive.isBox {α : Type} : Primitive α → Bool
  | .box _ => true
  | _ => false

/-- The box that an entity has in a rectangle. -/
def Node.boxIn {α : Type} (n : Node α) (rect : Rect α) : Box α :=
  ⟨rect, if n.isWeak then .weakEntity else .strongEntity, n.name, n.key.map (·.row),
    n.others.map (·.row)⟩

/-- An entity has a rectangle when its position and its size are known. -/
theorem Node.rect_eq_ok_iff {α : Type} {n : Node α} {rect : Rect α} : n.rect = .ok rect ↔
    ∃ position bounds, n.position = some position ∧ n.bounds = some bounds ∧
      rect = ⟨position.x, position.y, bounds.width, bounds.height⟩ := by
  unfold Node.rect
  split
  · simp_all
  · simp_all
  · rename_i position bounds hposition hbounds
    simp only [hposition, hbounds, Option.some.injEq, exists_and_left, exists_eq_left']
    exact ⟨fun h => (Except.ok.inj h).symm, fun h => h ▸ rfl⟩

namespace Diagram

variable {α : Type} {d : Diagram α}

theorem requireNode_eq_ok_iff {name part : String} {n : Node α} :
    d.requireNode name part = .ok n ↔ d.node? name = some n := by
  unfold requireNode
  split <;> simp_all

theorem boxPart_eq_ok {n : Node α} {rect : Rect α} (h : n.rect = .ok rect) :
    boxPart n = .ok [.box (n.boxIn rect)] := by
  rw [boxPart, h]
  rfl

/-- An error of a part that finds its names is not about a name. -/
lemma findsNames_of_mem_errors {x : Except (Failure α) (List (Primitive α))} (hx : FindsNames x)
    {part : Drawing α} (h : Drawing.ofPart x = .ok part) {e : Inconsistency} :
    .inconsistency e ∉ part.errors := by
  intro he
  rcases Drawing.ofPart_eq_ok_iff.mp h with ⟨primitives, -, rfl⟩ | ⟨error, hpart, rfl⟩
  · contradiction
  · rw [List.mem_singleton] at he
    exact hx e (he ▸ hpart)

variable [Scalar α]

/-- What a relationship that is drawn is drawn from. -/
theorem relationshipPart_eq_ok_iff {r : Relationship} {primitives : List (Primitive α)} :
    d.relationshipPart r = .ok primitives ↔
    ∃ source target cardinality sourceRect targetRect start finish line symbols,
      d.node? r.source.entity = some source ∧ d.node? r.target.entity = some target ∧
      d.schema.cardinality r = .ok cardinality ∧
      source.rect = .ok sourceRect ∧ target.rect = .ok targetRect ∧
      connectionPoint sourceRect targetRect (some (relationshipSubject r)) = .ok start ∧
      connectionPoint targetRect sourceRect (some (relationshipSubject r)) = .ok finish ∧
      route start finish (some (relationshipSubject r)) = .ok line ∧
      relationshipSymbols finish start cardinality (d.schema.isIdentifying r)
        (some (relationshipSubject r)) = .ok symbols ∧
      primitives = .path line.points
          (if d.schema.isIdentifying r then .identifying else .nonIdentifying) ::
        symbols ++ [.text line.labelPoint (relationshipLabel r) .middle .relationshipLabel] := by
  unfold relationshipPart
  simp only [bind_eq_ok_iff, requireNode_eq_ok_iff, mapError_eq_ok_iff]
  constructor
  · rintro ⟨source, hsource, target, htarget, cardinality, hcardinality, sourceRect, hsourceRect,
      targetRect, htargetRect, start, hstart, finish, hfinish, line, hline, symbols, hsymbols, h⟩
    exact ⟨source, target, cardinality, sourceRect, targetRect, start, finish, line, symbols,
      hsource, htarget, hcardinality, hsourceRect, htargetRect, hstart, hfinish, hline, hsymbols,
      (Except.ok.inj h).symm⟩
  · rintro ⟨source, target, cardinality, sourceRect, targetRect, start, finish, line, symbols,
      hsource, htarget, hcardinality, hsourceRect, htargetRect, hstart, hfinish, hline, hsymbols,
      rfl⟩
    exact ⟨source, hsource, target, htarget, cardinality, hcardinality, sourceRect, hsourceRect,
      targetRect, htargetRect, start, hstart, finish, hfinish, line, hline, symbols, hsymbols, rfl⟩

/-- A junction is drawn from the rectangle of its generic entity. -/
theorem hubPart_eq_ok_iff {g : Generalization} {hub : Hub α} :
    d.hubPart g = .ok hub ↔ ∃ generic rect, d.node? g.generic = some generic ∧
      generic.rect = .ok rect ∧
      Hub.below rect g.complete g.discriminator (some (generalizationSubject g)) = .ok hub := by
  unfold hubPart
  simp only [bind_eq_ok_iff, requireNode_eq_ok_iff]
  constructor
  · rintro ⟨generic, hgeneric, rect, hrect, hbelow⟩
    exact ⟨generic, rect, hgeneric, hrect, hbelow⟩
  · rintro ⟨generic, rect, hgeneric, hrect, hbelow⟩
    exact ⟨generic, hgeneric, rect, hrect, hbelow⟩

/-- A connector is drawn from a junction to the rectangle of its category. -/
theorem connectorPart_eq_ok_iff {g : Generalization} {hub : Hub α} {name : String}
    {primitives : List (Primitive α)} :
    d.connectorPart g hub name = .ok primitives ↔ ∃ category rect points,
      d.node? name = some category ∧ category.rect = .ok rect ∧
      categoryPoints hub.anchor rect (some (generalizationSubject g ++ " -> " ++ name)) =
        .ok points ∧ primitives = [.path points .generalization] := by
  unfold connectorPart
  simp only [bind_eq_ok_iff, requireNode_eq_ok_iff, categoryConnector, map_eq_ok_iff]
  constructor
  · rintro ⟨category, hcategory, rect, hrect, -, ⟨points, hpoints, rfl⟩, h⟩
    exact ⟨category, rect, points, hcategory, hrect, hpoints, (Except.ok.inj h).symm⟩
  · rintro ⟨category, rect, points, hcategory, hrect, hpoints, rfl⟩
    exact ⟨category, hcategory, rect, hrect, _, ⟨points, hpoints, rfl⟩, rfl⟩

lemma isBox_of_mem_symbols {target source : Point α} {c : Cardinality} {identifying : Bool}
    {subject : Option String} {symbols : List (Primitive α)}
    (h : relationshipSymbols target source c identifying subject = .ok symbols)
    {p : Primitive α} (hp : p ∈ symbols) : p.isBox = false := by
  obtain ⟨-, -, rfl⟩ := relationshipSymbols_eq_ok_iff.mp h
  rcases List.mem_append.mp hp with hp | hp
  · unfold cardinalitySymbols at hp
    split at hp
    · rcases List.mem_cons.mp hp with rfl | hp
      · rfl
      · obtain ⟨glyph, -, rfl⟩ := List.mem_map.mp hp
        rfl
    · contradiction
  · split at hp
    · rw [List.mem_singleton.mp hp]
      rfl
    · contradiction

lemma isBox_of_mem_relationshipPart {r : Relationship} {primitives : List (Primitive α)}
    (h : d.relationshipPart r = .ok primitives) {p : Primitive α} (hp : p ∈ primitives) :
    p.isBox = false := by
  obtain ⟨_, _, _, _, _, _, _, line, symbols, _, _, _, _, _, _, _, _, hsymbols, rfl⟩ :=
    relationshipPart_eq_ok_iff.mp h
  rw [List.cons_append, List.mem_cons, List.mem_append, List.mem_singleton] at hp
  rcases hp with rfl | hp | rfl
  · rfl
  · exact isBox_of_mem_symbols hsymbols hp
  · rfl

lemma isBox_of_mem_hub {hub : Hub α} {p : Primitive α} (hp : p ∈ hub.primitives) :
    p.isBox = false := by
  rw [Hub.primitives, List.cons_append, List.mem_cons, List.mem_append] at hp
  rcases hp with rfl | hp | hp
  · rfl
  · obtain ⟨y, -, rfl⟩ := List.mem_map.mp hp
    rfl
  · obtain ⟨content, -, rfl⟩ := Option.map_eq_some_iff.mp (Option.mem_toList.mp hp)
    rfl

lemma isBox_of_mem_connectorPart {g : Generalization} {hub : Hub α} {name : String}
    {primitives : List (Primitive α)} (h : d.connectorPart g hub name = .ok primitives)
    {p : Primitive α} (hp : p ∈ primitives) : p.isBox = false := by
  obtain ⟨_, _, points, -, -, -, rfl⟩ := connectorPart_eq_ok_iff.mp h
  rw [List.mem_singleton.mp hp]
  rfl

/-- A generalization adds no box. -/
lemma isBox_of_mem_generalizationDrawing {g : Generalization} {part : Drawing α}
    (h : d.generalizationDrawing g = .ok part) {p : Primitive α} (hp : p ∈ part.primitives) :
    p.isBox = false := by
  unfold generalizationDrawing at h
  split at h
  · rcases Drawing.ofPart_eq_ok_iff.mp h with ⟨primitives, hpart, -⟩ | ⟨error, -, rfl⟩
    · contradiction
    · contradiction
  · obtain ⟨connector, hconnector, hp⟩ := Drawing.exists_of_mem_primitives h hp
    rcases List.mem_cons.mp hconnector with hhub | hconnector
    · cases hhub
      exact isBox_of_mem_hub hp
    · obtain ⟨name, -, hname⟩ := List.mem_map.mp hconnector
      rcases Drawing.ofPart_eq_ok_iff.mp hname with ⟨primitives, hpart, rfl⟩ | ⟨error, -, rfl⟩
      · exact isBox_of_mem_connectorPart hpart hp
      · contradiction

lemma findsNames_of_mem_generalizationDrawing {g : Generalization} (hg : d.schema.JoinsEntities g)
    {part : Drawing α} (h : d.generalizationDrawing g = .ok part) {e : Inconsistency} :
    .inconsistency e ∉ part.errors := by
  intro he
  unfold generalizationDrawing at h
  split at h
  · rename_i failure hfailure
    have hfinds := findsNames_hubPart (d := d) hg
    rcases Drawing.ofPart_eq_ok_iff.mp h with ⟨primitives, hpart, -⟩ | ⟨error, hpart, rfl⟩
    · contradiction
    · cases hpart
      rw [List.mem_singleton] at he
      exact hfinds e (by rw [hfailure, he])
  · obtain ⟨connector, hconnector, he⟩ := Drawing.exists_of_mem_errors h he
    rcases List.mem_cons.mp hconnector with hhub | hconnector
    · cases hhub
      contradiction
    · obtain ⟨name, hname, hpart⟩ := List.mem_map.mp hconnector
      exact findsNames_of_mem_errors (findsNames_connectorPart hg _ hname) hpart he

/-- Where every entity has a rectangle, the boxes of a drawing come first and are all its boxes. -/
theorem exists_boxes_of_draw_eq_ok {drawing : Drawing α} (h : d.draw = .ok drawing)
    {rect : Node α → Rect α} (hrect : ∀ n ∈ d.nodes, n.rect = .ok (rect n)) :
    ∃ rest, drawing.primitives = (d.nodes.map fun n => .box (n.boxIn (rect n))) ++ rest ∧
      ∀ p ∈ rest, p.isBox = false := by
  rw [draw, List.append_assoc] at h
  obtain ⟨boxes, others, hboxes, hothers, rfl⟩ := Drawing.collect_append_eq_ok h
  refine ⟨others.primitives, ?_, ?_⟩
  · have hparts : d.nodes.map (fun n => Drawing.ofPart (boxPart n)) =
        (d.nodes.map fun n => (⟨[.box (n.boxIn (rect n))], []⟩ : Drawing α)).map .ok := by
      rw [List.map_map]
      apply List.map_congr_left
      intro n hn
      rw [boxPart_eq_ok (hrect n hn)]
      rfl
    have hjoin := Drawing.collect_eq_ok_iff.mpr ⟨_, hparts, rfl⟩
    obtain rfl : boxes = _ := Except.ok.inj (hboxes.symm.trans hjoin)
    rw [Drawing.primitives_append, Drawing.primitives_join_map_single]
  · intro p hp
    obtain ⟨part, hpart, hp⟩ := Drawing.exists_of_mem_primitives hothers hp
    rcases List.mem_append.mp hpart with hpart | hpart
    · obtain ⟨r, -, hr⟩ := List.mem_map.mp hpart
      rcases Drawing.ofPart_eq_ok_iff.mp hr with ⟨primitives, hok, rfl⟩ | ⟨error, -, rfl⟩
      · exact isBox_of_mem_relationshipPart hok hp
      · contradiction
    · obtain ⟨g, -, hg⟩ := List.mem_map.mp hpart
      exact isBox_of_mem_generalizationDrawing hg hp

/-- In a schema without violations no name is missing from a drawing. -/
theorem inconsistency_notMem_errors (valid : d.schema.violation? = none) {drawing : Drawing α}
    (h : d.draw = .ok drawing) (e : Inconsistency) : .inconsistency e ∉ drawing.errors := by
  obtain ⟨names, ends, joins, -⟩ := d.schema.violation?_eq_none_iff.mp valid
  intro he
  obtain ⟨part, hpart, he⟩ := Drawing.exists_of_mem_errors h he
  rw [List.append_assoc, List.mem_append, List.mem_append] at hpart
  rcases hpart with hpart | hpart | hpart
  · obtain ⟨n, -, hn⟩ := List.mem_map.mp hpart
    exact findsNames_of_mem_errors (.map (.rect n) _) hn he
  · obtain ⟨r, hr, hpart⟩ := List.mem_map.mp hpart
    obtain ⟨source, target⟩ := ends r hr
    exact findsNames_of_mem_errors (findsNames_relationshipPart names source target) hpart he
  · obtain ⟨g, hg, hpart⟩ := List.mem_map.mp hpart
    exact findsNames_of_mem_generalizationDrawing (joins g hg) hpart he

end Diagram

end EntityDiagram
