import EntityDiagram.Proofs.Drawing.Isolation

/-! What each block of a drawing is about: an entity, a relationship, the junction of a
generalization, or one of its connectors. A junction and its connectors are blocks of their own, so
a drawing is a list of blocks each of which is drawn as a whole or is one error. -/
namespace EntityDiagram

/-- What a block of a drawing is about. -/
inductive Subject where
  | entity (name : String)
  | relationship (relationship : Relationship)
  | junction (generalization : Generalization)
  | connector (generalization : Generalization) (category : String)
  deriving DecidableEq, Repr

/-- Whether an entity takes part: its own block, and what is drawn from its rectangle. -/
def Subject.involves (name : String) : Subject → Bool
  | entity other => other = name
  | relationship r => r.source.entity = name ∨ r.target.entity = name
  | junction g => g.generic = name
  | connector g category => g.generic = name ∨ category = name

/-- All that a drawing of a schema can be about, in the order of the drawing. -/
def Schema.subjects (s : Schema) : List Subject :=
  s.entities.map (.entity ·.name) ++ s.relationships.map .relationship ++
    s.generalizations.flatMap fun g => .junction g :: g.categories.map (.connector g)

namespace Drawing

variable {α : Type}

theorem collect_append (parts rest : List (Except ArithmeticFault (Drawing α))) :
    collect (parts ++ rest) = do
      let first ← collect parts
      let others ← collect rest
      return first ++ others := by
  induction parts with
  | nil =>
    rw [List.nil_append]
    cases collect rest <;> rfl
  | cons part parts ih =>
    rw [List.cons_append, collect, collect, ih]
    rcases part with fault | first
    · rfl
    · rcases collect parts with fault | before
      · rfl
      · rcases collect rest with fault | after
        · rfl
        · exact congrArg Except.ok (congrArg₂ Drawing.mk (List.append_assoc _ _ _).symm
            (List.append_assoc _ _ _).symm)

/-- Groups of parts may be collected one by one. -/
theorem collect_flatMap {β : Type} (f : β → List (Except ArithmeticFault (Drawing α)))
    (l : List β) : collect (l.flatMap f) = collect (l.map fun b => collect (f b)) := by
  induction l with
  | nil => rfl
  | cons b rest ih => rw [List.flatMap_cons, collect_append, ih, List.map_cons, collect]

/-- Parts that make a drawing, each beside its own. -/
theorem exists_blocks_of_collect_eq_ok {β : Type}
    {parts : List (β × Except ArithmeticFault (Drawing α))} {drawing : Drawing α}
    (h : collect (parts.map (·.2)) = .ok drawing) :
    ∃ blocks : List (β × Drawing α), parts = blocks.map (fun block => (block.1, .ok block.2)) ∧
      drawing = join (blocks.map (·.2)) := by
  induction parts generalizing drawing with
  | nil => exact ⟨[], rfl, (Except.ok.inj h).symm⟩
  | cons part rest ih =>
    obtain ⟨first, hfirst, h⟩ := bind_eq_ok_iff.mp h
    obtain ⟨others, hothers, h⟩ := bind_eq_ok_iff.mp h
    obtain ⟨blocks, rfl, rfl⟩ := ih hothers
    refine ⟨(part.1, first) :: blocks, ?_, (Except.ok.inj h).symm⟩
    rw [List.map_cons, ← hfirst]

end Drawing

namespace Diagram

variable {α : Type} [Scalar α]

/-- The junction of a generalization, and its connectors where it has one. -/
def generalizationParts (d : Diagram α) (g : Generalization) :
    List (Subject × Except ArithmeticFault (Drawing α)) :=
  match d.hubPart g with
  | .error failure => [(.junction g, Drawing.ofPart (.error failure))]
  | .ok hub =>
    (.junction g, .ok ⟨hub.primitives, []⟩) ::
      g.categories.map fun name => (.connector g name, Drawing.ofPart (d.connectorPart g hub name))

/-- The parts of a drawing in order, each beside its subject. -/
def parts (d : Diagram α) : List (Subject × Except ArithmeticFault (Drawing α)) :=
  d.nodes.map (fun n => (.entity n.name, Drawing.ofPart (boxPart n))) ++
  d.relationships.map (fun r => (.relationship r, Drawing.ofPart (d.relationshipPart r))) ++
  d.generalizations.flatMap d.generalizationParts

variable (d : Diagram α)

theorem generalizationDrawing_eq_collect (g : Generalization) :
    d.generalizationDrawing g = Drawing.collect ((d.generalizationParts g).map (·.2)) := by
  unfold generalizationDrawing generalizationParts
  cases d.hubPart g with
  | error failure =>
    change _ = Drawing.collect [Drawing.ofPart (.error failure)]
    rcases failure with error | fault <;> rfl
  | ok hub => rw [List.map_cons, List.map_map]; rfl

theorem draw_eq_collect : d.draw = Drawing.collect (d.parts.map (·.2)) := by
  have hgeneralizations : d.generalizationDrawing =
      fun g => Drawing.collect ((d.generalizationParts g).map (·.2)) :=
    funext d.generalizationDrawing_eq_collect
  rw [draw, parts, List.map_append, List.map_append, List.map_map, List.map_map, List.map_flatMap,
    Drawing.collect_append, Drawing.collect_append _ (List.flatMap _ _), Drawing.collect_flatMap,
    hgeneralizations]
  rfl

/-- The blocks of a drawing, each beside its subject. -/
structure Draws (d : Diagram α) (drawing : Drawing α) (blocks : List (Subject × Drawing α)) :
    Prop where
  parts : d.parts = blocks.map fun block => (block.1, .ok block.2)
  drawing : drawing = Drawing.join (blocks.map (·.2))

theorem exists_draws {d : Diagram α} {drawing : Drawing α} (h : d.draw = .ok drawing) :
    ∃ blocks, d.Draws drawing blocks := by
  rw [draw_eq_collect] at h
  obtain ⟨blocks, hparts, hjoin⟩ := Drawing.exists_blocks_of_collect_eq_ok h
  exact ⟨blocks, hparts, hjoin⟩

end Diagram

end EntityDiagram
