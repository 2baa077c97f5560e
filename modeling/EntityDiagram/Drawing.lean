import EntityDiagram.Geometry.Connection
import EntityDiagram.Geometry.Hub
import EntityDiagram.Geometry.Route
import EntityDiagram.Geometry.Symbols

/-! Drawings of diagrams: boxes, then relationships, then generalizations. Every part is drawn as a
whole or reported as one error, so a broken part hides nothing else. -/
namespace EntityDiagram

structure Drawing (α : Type) where
  primitives : List (Primitive α)
  errors : List (PartError α)
  deriving DecidableEq, Repr

namespace Drawing

variable {α : Type}

def empty : Drawing α := ⟨[], []⟩

def append (a b : Drawing α) : Drawing α := ⟨a.primitives ++ b.primitives, a.errors ++ b.errors⟩

instance : Append (Drawing α) := ⟨append⟩

@[simp] theorem primitives_append (a b : Drawing α) :
    (a ++ b).primitives = a.primitives ++ b.primitives := rfl

@[simp] theorem errors_append (a b : Drawing α) : (a ++ b).errors = a.errors ++ b.errors := rfl

/-- Nothing was left out. -/
def isComplete (d : Drawing α) : Bool := d.errors.isEmpty

/-- A part with its primitives, or with its one error. -/
def ofPart : Except (Failure α) (List (Primitive α)) → Except ArithmeticFault (Drawing α)
  | .ok primitives => .ok ⟨primitives, []⟩
  | .error (.part error) => .ok ⟨[], [error]⟩
  | .error (.arithmetic fault) => .error fault

/-- Parts one after the other. The first fault of arithmetic ends the drawing. -/
def collect : List (Except ArithmeticFault (Drawing α)) → Except ArithmeticFault (Drawing α)
  | [] => .ok empty
  | part :: rest => do
    let first ← part
    let others ← collect rest
    return first ++ others

end Drawing

namespace Diagram

variable {α : Type} [Scalar α]

/-- An entity that a part needs. -/
def requireNode (d : Diagram α) (name part : String) : Except (Failure α) (Node α) :=
  match d.node? name with
  | none => .error (.part (.inconsistency (.unknownEntity part name)))
  | some n => .ok n

/-- The box of an entity. -/
def boxPart (n : Node α) : Except (Failure α) (List (Primitive α)) :=
  n.rect.map fun rect =>
    [.box ⟨rect, if n.isWeak then .weakEntity else .strongEntity, n.name, n.key.map (·.row),
      n.others.map (·.row)⟩]

/-- How a relationship is named in errors. -/
def relationshipSubject (r : Relationship) : String :=
  r.source.entity ++ "." ++ r.source.name ++ " -> " ++ r.target.entity ++ "." ++ r.target.name

/-- The label of a relationship, or its two attributes when it has none. -/
def relationshipLabel (r : Relationship) : String :=
  match r.label with
  | none | some "" => r.source.name ++ " → " ++ r.target.name
  | some label => label

/-- A relationship: its route, its symbols, its label. -/
def relationshipPart (d : Diagram α) (r : Relationship) :
    Except (Failure α) (List (Primitive α)) := do
  let subject := relationshipSubject r
  let source ← d.requireNode r.source.entity subject
  let target ← d.requireNode r.target.entity subject
  let cardinality ← (d.schema.cardinality r).mapError fun e => .part (.inconsistency e)
  let identifying := d.schema.isIdentifying r
  let sourceRect ← source.rect
  let targetRect ← target.rect
  let start ← connectionPoint sourceRect targetRect (some subject)
  let finish ← connectionPoint targetRect sourceRect (some subject)
  let line ← route start finish (some subject)
  let symbols ← relationshipSymbols finish start cardinality identifying (some subject)
  return .path line.points (if identifying then .identifying else .nonIdentifying) ::
    symbols ++ [.text line.labelPoint (relationshipLabel r) .middle .relationshipLabel]

def generalizationSubject (g : Generalization) : String := "generalization " ++ g.generic

/-- The junction of a generalization. -/
def hubPart (d : Diagram α) (g : Generalization) : Except (Failure α) (Hub α) := do
  let subject := generalizationSubject g
  let generic ← d.requireNode g.generic subject
  Hub.below (← generic.rect) g.complete g.discriminator (some subject)

/-- The connector from a junction to a category. -/
def connectorPart (d : Diagram α) (g : Generalization) (hub : Hub α) (name : String) :
    Except (Failure α) (List (Primitive α)) := do
  let subject := generalizationSubject g ++ " -> " ++ name
  let category ← d.requireNode name subject
  let connector ← categoryConnector hub.anchor (← category.rect) (some subject)
  return [connector]

/-- A generalization: the junction, and below it every connector that can be drawn. -/
def generalizationDrawing (d : Diagram α) (g : Generalization) :
    Except ArithmeticFault (Drawing α) :=
  match d.hubPart g with
  | .error failure => Drawing.ofPart (.error failure)
  | .ok hub =>
    Drawing.collect <| .ok ⟨hub.primitives, []⟩ ::
      g.categories.map fun name => Drawing.ofPart (d.connectorPart g hub name)

/-- The drawing of a diagram as it is now placed. -/
def draw (d : Diagram α) : Except ArithmeticFault (Drawing α) :=
  Drawing.collect <|
    d.nodes.map (fun n => Drawing.ofPart (boxPart n)) ++
    d.relationships.map (fun r => Drawing.ofPart (d.relationshipPart r)) ++
    d.generalizations.map d.generalizationDrawing

end Diagram

end EntityDiagram
