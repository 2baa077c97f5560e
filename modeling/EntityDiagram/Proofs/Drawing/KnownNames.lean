import EntityDiagram.Proofs.Drawing.Collect
import EntityDiagram.Proofs.Schema.References

/-! Which names a drawing looks for. Geometry never asks for a name, so only a missing end of a
relationship or a missing member of a generalization is reported as an inconsistency, and in a
schema without violations there is none. -/
namespace EntityDiagram

/-- A computation that does not fail for want of a name. -/
def FindsNames {α β : Type} (x : Except (Failure α) β) : Prop :=
  ∀ e, x ≠ .error (.part (.inconsistency e))

namespace FindsNames

variable {α β γ : Type}

theorem ok (b : β) : FindsNames (α := α) (.ok b) := by
  intro e h
  contradiction

theorem geometry (cause : GeometryCause) (subject : Option String) (coordinates : List α) :
    FindsNames (β := β) (.error (.geometry cause subject coordinates)) := by
  intro e h
  cases h

theorem arithmetic (x : Except ArithmeticFault β) :
    FindsNames (α := α) (x.mapError .arithmetic) := by
  intro e h
  cases x <;> cases h

theorem bind {x : Except (Failure α) β} {f : β → Except (Failure α) γ} (hx : FindsNames x)
    (hf : ∀ b, x = .ok b → FindsNames (f b)) : FindsNames (x >>= f) := by
  cases x with
  | error failure =>
    intro e h
    exact hx e (congrArg Except.error (Except.error.inj h))
  | ok b => exact hf b rfl

theorem map {x : Except (Failure α) β} (hx : FindsNames x) (f : β → γ) : FindsNames (x.map f) := by
  cases x with
  | error failure =>
    intro e h
    exact hx e (congrArg Except.error (Except.error.inj h))
  | ok b => exact .ok _

theorem rect (n : Node α) : FindsNames n.rect := by
  intro e h
  unfold Node.rect at h
  split at h <;> cases h

theorem forM (l : List β) {f : β → Except (Failure α) PUnit} (h : ∀ b, FindsNames (f b)) :
    FindsNames (l.forM f) := by
  induction l with
  | nil => exact .ok _
  | cons b rest ih => exact bind (h b) fun _ _ => ih

variable [Scalar α]

theorem checkFinite (subject : Option String) (numbers : List α) :
    FindsNames (checkFinite subject numbers) := by
  unfold EntityDiagram.checkFinite
  split
  · exact .ok _
  · split
    · exact .geometry _ _ _
    · exact arithmetic (.error .tooLarge)

theorem edgePoint (r : Rect α) (dx dy : α) : FindsNames (r.edgePoint dx dy) := by
  unfold Rect.edgePoint
  simp only
  split
  · exact (arithmetic _).map _
  · exact (arithmetic _).map _

theorem connectionPoint (source target : Rect α) (subject : Option String) :
    FindsNames (connectionPoint source target subject) := by
  refine bind (.checkFinite _ _) fun _ _ => bind (.checkFinite _ _) fun _ _ => ?_
  simp only
  split
  · exact .geometry _ _ _
  · exact bind (.edgePoint _ _ _) fun _ _ => bind (.checkFinite _ _) fun _ _ => .ok _

theorem route (start finish : Point α) (subject : Option String) :
    FindsNames (route start finish subject) :=
  bind (.forM _ fun _ => .checkFinite _ _) fun _ _ => .ok _

theorem relationshipSymbols (target source : Point α) (c : Cardinality) (identifying : Bool)
    (subject : Option String) :
    FindsNames (relationshipSymbols target source c identifying subject) := by
  unfold EntityDiagram.relationshipSymbols
  split
  · exact .geometry _ _ _
  · split
    · exact arithmetic (.error .tooLarge)
    · exact .ok _

theorem below (generic : Rect α) (complete : Bool) (discriminator subject : Option String) :
    FindsNames (Hub.below generic complete discriminator subject) :=
  bind (.checkFinite _ _) fun _ _ => bind (arithmetic _) fun _ _ => bind (arithmetic _) fun _ _ =>
    .ok _

theorem categoryConnector (anchor : Point α) (category : Rect α) (subject : Option String) :
    FindsNames (categoryConnector anchor category subject) :=
  map (bind (.checkFinite _ _) fun _ _ => bind (arithmetic _) fun _ _ =>
    bind (arithmetic _) fun _ _ => bind (arithmetic _) fun _ _ => .ok _) _

end FindsNames

namespace Diagram

variable {α : Type} {d : Diagram α}

theorem entity?_schema (d : Diagram α) (name : String) :
    d.schema.entity? name = (d.node? name).map (·.toEntity) := by
  rw [Schema.entity?, schema, List.find?_map, node?]
  rfl

theorem isSome_node?_iff (d : Diagram α) (name : String) :
    (d.node? name).isSome ↔ name ∈ d.schema.entities.map (·.name) := by
  rw [← Schema.isSome_entity?_iff, entity?_schema, Option.isSome_map]

theorem findsNames_requireNode {name : String} (h : name ∈ d.schema.entities.map (·.name))
    (part : String) : FindsNames (d.requireNode name part) := by
  obtain ⟨n, hn⟩ := Option.isSome_iff_exists.mp ((d.isSome_node?_iff name).mpr h)
  rw [requireNode, hn]
  exact .ok n

variable [Scalar α]

/-- Between two attributes of the schema nothing is missing. -/
theorem findsNames_relationshipPart (names : d.schema.HasDistinctNames) {r : Relationship}
    (source : d.schema.HasAttribute r.source) (target : d.schema.HasAttribute r.target) :
    FindsNames (d.relationshipPart r) := by
  unfold relationshipPart
  refine .bind (findsNames_requireNode source.mem_entities _) fun _ _ => ?_
  refine .bind (findsNames_requireNode target.mem_entities _) fun _ _ => ?_
  obtain ⟨e, he, a, ha, hsource⟩ := source
  rw [names.cardinality_eq he ha hsource target]
  refine .bind (.ok _) fun _ _ => .bind (.rect _) fun _ _ => .bind (.rect _) fun _ _ => ?_
  refine .bind (.connectionPoint _ _ _) fun _ _ => .bind (.connectionPoint _ _ _) fun _ _ => ?_
  exact .bind (.route _ _ _) fun _ _ => .bind (.relationshipSymbols _ _ _ _ _) fun _ _ => .ok _

theorem findsNames_hubPart {g : Generalization} (h : d.schema.JoinsEntities g) :
    FindsNames (d.hubPart g) :=
  (findsNames_requireNode h.generic _).bind fun _ _ => .bind (.rect _) fun _ _ => .below _ _ _ _

theorem findsNames_connectorPart {g : Generalization} (h : d.schema.JoinsEntities g) (hub : Hub α)
    {name : String} (hname : name ∈ g.categories) : FindsNames (d.connectorPart g hub name) :=
  (findsNames_requireNode (h.categories name hname).1 _).bind fun _ _ => .bind (.rect _) fun _ _ =>
    .bind (.categoryConnector _ _ _) fun _ _ => .ok _

end Diagram

end EntityDiagram
