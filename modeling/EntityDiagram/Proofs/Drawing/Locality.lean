import EntityDiagram.Proofs.Drawing.Subjects
import EntityDiagram.Proofs.Pairing

/-! How far a move reaches. A block is drawn from the rectangles of the entities that take part in
it and from the schema, so when one entity is moved or measured anew, all blocks without it stay as
they are and keep their order, whether they are drawn or errors. -/
namespace EntityDiagram.Diagram

variable {α : Type}

/-- Two states of a diagram that differ at most in where the entities of a name stand and in how
large they are. -/
structure DiffersAt (name : String) (d e : Diagram α) : Prop where
  nodes : List.Forall₂ (fun n m : Node α => n.toEntity = m.toEntity ∧ (n.name ≠ name → n = m))
    d.nodes e.nodes
  relationships : d.relationships = e.relationships
  generalizations : d.generalizations = e.generalizations

/-- Changing the first member that satisfies a test, seen member by member. -/
theorem forall₂_modifyFirst {β : Type} {R : β → β → Prop} {p : β → Bool} {f : β → β}
    (hself : ∀ b, R b b) (hchange : ∀ b, p b = true → R b (f b)) (l : List β) :
    List.Forall₂ R l (modifyFirst p f l) := by
  induction l with
  | nil => exact .nil
  | cons b rest ih =>
    rw [modifyFirst]
    split_ifs with hb
    · exact .cons (hchange b hb) (List.forall₂_same.mpr fun c _ => hself c)
    · exact .cons (hself b) ih

/-- Giving an entity another place or another size. -/
theorem differsAt_modifyNode (d : Diagram α) (name : String) {f : Node α → Node α}
    (hf : ∀ n, (f n).toEntity = n.toEntity) : d.DiffersAt name (d.modifyNode name f) := by
  refine ⟨forall₂_modifyFirst ?_ ?_ d.nodes, rfl, rfl⟩
  · intro n
    exact ⟨rfl, fun _ => rfl⟩
  · intro n hn
    exact ⟨(hf n).symm, fun hne => absurd (by simpa using hn) hne⟩

namespace DiffersAt

variable {name : String} {d e : Diagram α} (h : d.DiffersAt name e)

include h

theorem schema_eq : d.schema = e.schema := by
  have hentities : d.nodes.map (·.toEntity) = e.nodes.map (·.toEntity) :=
    Pairing.map_eq_map h.nodes fun _ _ hnode => hnode.1
  rw [schema, schema, hentities, h.relationships, h.generalizations]

/-- Both states have the same entities of other names. -/
theorem filter_nodes_eq :
    d.nodes.filter (·.name ≠ name) = e.nodes.filter (·.name ≠ name) := by
  have hnodes := h.nodes
  generalize d.nodes = nodes at hnodes ⊢
  generalize e.nodes = others at hnodes ⊢
  induction hnodes with
  | nil => rfl
  | @cons n m _ _ hnode _ ih =>
    have hname : n.name = m.name := congrArg Entity.name hnode.1
    rw [List.filter_cons, List.filter_cons, ih, hname]
    by_cases hm : m.name = name
    · simp [hm]
    · rw [hnode.2 (hname ▸ hm)]

theorem node?_eq {other : String} (hother : other ≠ name) : d.node? other = e.node? other := by
  have hfind (d : Diagram α) :
      d.node? other = (d.nodes.filter (·.name ≠ name)).find? (·.name = other) := by
    rw [node?, List.find?_filter]
    congr 1
    funext n
    by_cases hn : n.name = other
    · simp [hn, hother]
    · simp [hn]
  rw [hfind, hfind, h.filter_nodes_eq]

theorem requireNode_eq {other : String} (hother : other ≠ name) (part : String) :
    d.requireNode other part = e.requireNode other part := by
  rw [requireNode, requireNode, h.node?_eq hother]

variable [Scalar α]

theorem relationshipPart_eq {r : Relationship} (hsource : r.source.entity ≠ name)
    (htarget : r.target.entity ≠ name) : d.relationshipPart r = e.relationshipPart r := by
  rw [relationshipPart, relationshipPart, h.requireNode_eq hsource, h.requireNode_eq htarget,
    h.schema_eq]

theorem hubPart_eq {g : Generalization} (hgeneric : g.generic ≠ name) :
    d.hubPart g = e.hubPart g := by
  rw [hubPart, hubPart, h.requireNode_eq hgeneric]

theorem connectorPart_eq (g : Generalization) (hub : Hub α) {category : String}
    (hcategory : category ≠ name) :
    d.connectorPart g hub category = e.connectorPart g hub category := by
  rw [connectorPart, connectorPart, h.requireNode_eq hcategory]

end DiffersAt

/-- Without the blocks of an entity. -/
def without {β : Type} (name : String) (blocks : List (Subject × β)) : List (Subject × β) :=
  blocks.filter fun block => !block.1.involves name

theorem without_append {β : Type} (name : String) (blocks others : List (Subject × β)) :
    without name (blocks ++ others) = without name blocks ++ without name others :=
  List.filter_append ..

theorem without_flatMap {β γ : Type} (name : String) (f : γ → List (Subject × β)) (l : List γ) :
    without name (l.flatMap f) = l.flatMap fun c => without name (f c) :=
  List.filter_flatMap ..

/-- What is listed for each member may differ where an entity takes part. -/
theorem without_map_congr {β γ : Type} {name : String} {l : List γ} {f g : γ → Subject × β}
    (hsubject : ∀ c ∈ l, (f c).1 = (g c).1)
    (hvalue : ∀ c ∈ l, (f c).1.involves name = false → f c = g c) :
    without name (l.map f) = without name (l.map g) := by
  induction l with
  | nil => rfl
  | cons c rest ih =>
    have hrest := ih (fun b hb => hsubject b (List.mem_cons_of_mem _ hb))
      (fun b hb => hvalue b (List.mem_cons_of_mem _ hb))
    have hc := hsubject c List.mem_cons_self
    unfold without at hrest ⊢
    rw [List.map_cons, List.map_cons, List.filter_cons, List.filter_cons, hrest, ← hc]
    by_cases hinvolves : (f c).1.involves name = true
    · simp [hinvolves]
    · rw [hvalue c List.mem_cons_self (by simpa using hinvolves)]

namespace DiffersAt

variable [Scalar α] {name : String} {d e : Diagram α} (h : d.DiffersAt name e)

include h

omit [Scalar α] in
theorem without_boxes_eq :
    without name (d.nodes.map fun n => (.entity n.name, Drawing.ofPart (boxPart n))) =
      without name (e.nodes.map fun n => (.entity n.name, Drawing.ofPart (boxPart n))) := by
  have hfilter : (fun block : Subject × Except ArithmeticFault (Drawing α) =>
        !block.1.involves name) ∘ (fun n => (.entity n.name, Drawing.ofPart (boxPart n))) =
      fun n : Node α => decide (n.name ≠ name) := by
    funext n
    simp [Subject.involves]
  rw [without, without, List.filter_map, List.filter_map, hfilter, h.filter_nodes_eq]

theorem without_generalizationParts_eq (g : Generalization) :
    without name (d.generalizationParts g) = without name (e.generalizationParts g) := by
  by_cases hgeneric : g.generic = name
  · have hempty (d : Diagram α) : without name (d.generalizationParts g) = [] := by
      unfold without generalizationParts
      cases d.hubPart g <;> simp [Subject.involves, hgeneric]
    rw [hempty, hempty]
  · unfold generalizationParts
    rw [h.hubPart_eq hgeneric]
    cases e.hubPart g with
    | error failure => rfl
    | ok hub =>
      have hconnectors : without name (g.categories.map fun category =>
            (.connector g category, Drawing.ofPart (d.connectorPart g hub category))) =
          without name (g.categories.map fun category =>
            (.connector g category, Drawing.ofPart (e.connectorPart g hub category))) := by
        refine without_map_congr (fun _ _ => rfl) ?_
        intro category _ hcategory
        rw [h.connectorPart_eq g hub (by simpa [Subject.involves, hgeneric] using hcategory)]
      unfold without at hconnectors ⊢
      simp only [List.filter_cons, hconnectors]

/-- Blocks without the entity are the same. -/
theorem without_parts_eq : without name d.parts = without name e.parts := by
  have hrelationships :
      without name (d.relationships.map fun r =>
        (.relationship r, Drawing.ofPart (d.relationshipPart r))) =
      without name (e.relationships.map fun r =>
        (.relationship r, Drawing.ofPart (e.relationshipPart r))) := by
    rw [h.relationships]
    refine without_map_congr (fun _ _ => rfl) ?_
    intro r _ hr
    obtain ⟨hsource, htarget⟩ : r.source.entity ≠ name ∧ r.target.entity ≠ name := by
      simpa [Subject.involves] using hr
    rw [h.relationshipPart_eq hsource htarget]
  rw [parts, parts, without_append, without_append, without_append, without_append,
    h.without_boxes_eq, hrelationships, without_flatMap, without_flatMap, h.generalizations]
  congr 1
  exact List.flatMap_congr fun g _ => h.without_generalizationParts_eq g

end DiffersAt

variable [Scalar α]

/-- When entities of one name are moved or measured anew, the blocks in which none of them takes
part are the same in both drawings, drawn or errors, and stand in the same order. -/
theorem draw_reaches_involved {name : String} {d e : Diagram α} (h : d.DiffersAt name e)
    {first second : Drawing α} (hd : d.draw = .ok first) (he : e.draw = .ok second) :
    ∃ blocks others, d.Draws first blocks ∧ e.Draws second others ∧
      without name blocks = without name others := by
  obtain ⟨blocks, hblocks⟩ := exists_draws hd
  obtain ⟨others, hothers⟩ := exists_draws he
  refine ⟨blocks, others, hblocks, hothers, ?_⟩
  have hparts := h.without_parts_eq
  rw [hblocks.parts, hothers.parts] at hparts
  unfold without at hparts ⊢
  rw [List.filter_map, List.filter_map] at hparts
  refine List.map_injective_iff.mpr ?_ hparts
  intro block other heq
  rw [Prod.mk.injEq, Except.ok.injEq] at heq
  exact Prod.ext heq.1 heq.2

/-- A box that is moved onto another takes its relationship away and leaves the connectors to the
other categories. -/
theorem draw_reaches_involved_of_overlap :
    let d : Diagram Number :=
      { nodes :=
          [⟨⟨"A", [⟨"id", "n", false, false, none⟩], []⟩, some ⟨0, 0⟩, some ⟨100, 50⟩⟩,
            ⟨⟨"B", [], [⟨"a", "n", true, false, some ⟨"A", "id"⟩⟩]⟩, some ⟨300, 0⟩, some ⟨100, 50⟩⟩,
            ⟨⟨"C", [], [⟨"a", "n", false, true, some ⟨"A", "id"⟩⟩]⟩, none, some ⟨100, 50⟩⟩]
        relationships := [⟨⟨"B", "a"⟩, ⟨"A", "id"⟩, none⟩, ⟨⟨"C", "a"⟩, ⟨"A", "id"⟩, none⟩]
        generalizations := [⟨"A", ["B", "C"], true, none⟩] }
    let e := d.setPosition "B" (some ⟨0, 0⟩)
    ∃ first second, d.DiffersAt "B" e ∧ d.draw = .ok first ∧ e.draw = .ok second ∧
      first.errors.length = 3 ∧ second.errors.length = 4 ∧
      ∃ blocks others, d.Draws first blocks ∧ e.Draws second others ∧
        without "B" blocks = without "B" others := by
  intro d e
  have hdiffers : d.DiffersAt "B" e := d.differsAt_modifyNode "B" fun _ => rfl
  obtain ⟨first, hfirst⟩ : ∃ first, d.draw = .ok first := exists_ok_of_isOk (by decide +kernel)
  obtain ⟨second, hsecond⟩ : ∃ second, e.draw = .ok second := exists_ok_of_isOk (by decide +kernel)
  have hcounts : d.draw.toOption.map (·.errors.length) = some 3 ∧
      e.draw.toOption.map (·.errors.length) = some 4 := by decide +kernel
  rw [hfirst, hsecond] at hcounts
  exact ⟨first, second, hdiffers, hfirst, hsecond, Option.some.inj hcounts.1,
    Option.some.inj hcounts.2, draw_reaches_involved hdiffers hfirst hsecond⟩

end EntityDiagram.Diagram
