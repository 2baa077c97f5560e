import EntityDiagram.Schema

/-! Cardinality of relationships, read afresh from the attributes on every call. -/
namespace EntityDiagram

/-- A name that a schema does not have, met while a diagram is drawn. -/
inductive Inconsistency where
  | unknownEnd (entity : String)
  | missingAttribute (reference : AttributeRef)
  /-- An entity needed for some part of the drawing. -/
  | unknownEntity (part entity : String)
  deriving DecidableEq, Repr

namespace Inconsistency

def message : Inconsistency → String
  | unknownEnd entity => s!"relationship refers to unknown entity \"{entity}\""
  | missingAttribute ⟨entity, name⟩ => s!"entity \"{entity}\" has no attribute \"{name}\""
  | unknownEntity part entity => s!"{part}: unknown entity \"{entity}\""

/-- The entity that is missing, or that misses an attribute. -/
def entity : Inconsistency → String
  | unknownEnd entity | unknownEntity _ entity => entity
  | missingAttribute reference => reference.entity

/-- The attribute that is missing. -/
def attribute? : Inconsistency → Option String
  | missingAttribute reference => some reference.name
  | _ => none

end Inconsistency

/-- Whether the near end may be absent, and whether it may repeat. -/
structure Cardinality where
  optional : Bool
  many : Bool
  deriving DecidableEq, Repr

namespace Schema

/-- One end of a relationship. -/
def resolveEnd (s : Schema) (r : AttributeRef) : Except Inconsistency (Entity × Attribute) :=
  match s.entity? r.entity with
  | none => .error (.unknownEnd r.entity)
  | some e =>
    match e.attribute? r.name with
    | none => .error (.missingAttribute r)
    | some a => .ok (e, a)

/-- The cardinality of a relationship is that of its foreign key; both ends must exist. -/
def cardinality (s : Schema) (r : Relationship) : Except Inconsistency Cardinality := do
  let (_, a) ← s.resolveEnd r.source
  let _ ← s.resolveEnd r.target
  return ⟨a.optional, a.many⟩

end Schema

end EntityDiagram
