import EntityDiagram.Schema.Cycle

/-! Well-formed schemas: names are distinct, every reference leads somewhere, and no entity is its
own category, directly or through others. -/
namespace EntityDiagram

/-- What is wrong with a schema. -/
inductive Violation where
  | duplicateEntity (name : String)
  | duplicateAttribute (entity name : String)
  | unknownEntity (name : String)
  | missingAttribute (reference : AttributeRef)
  | unknownGeneric (generic : String)
  | unknownCategory (generic category : String)
  | selfCategory (name : String)
  | cycle (names : List String)
  deriving DecidableEq, Repr

namespace Violation

/-- The name a violation is about. -/
def token : Violation → String
  | duplicateEntity name | duplicateAttribute _ name | unknownEntity name | unknownGeneric name
  | unknownCategory _ name | selfCategory name => name
  | missingAttribute reference => reference.entity ++ "." ++ reference.name
  | cycle names => names.headD ""

def message : Violation → String
  | duplicateEntity name => s!"duplicate entity \"{name}\""
  | duplicateAttribute entity name => s!"duplicate attribute \"{name}\" in entity \"{entity}\""
  | unknownEntity name => s!"unknown entity \"{name}\""
  | missingAttribute ⟨entity, name⟩ => s!"entity \"{entity}\" has no attribute \"{name}\""
  | unknownGeneric generic => s!"generalization refers to unknown entity \"{generic}\""
  | unknownCategory generic category =>
    s!"generalization \"{generic}\" refers to unknown category \"{category}\""
  | selfCategory name => s!"entity \"{name}\" cannot be a category of itself"
  | cycle names => "generalization cycle: " ++ " -> ".intercalate names

end Violation

/-- The first name that stands earlier in the list too. -/
def firstRepeat (earlier : List String) : List String → Option String
  | [] => none
  | name :: rest => if name ∈ earlier then some name else firstRepeat (name :: earlier) rest

namespace Schema

/-- Repeated names, each entity before its attributes. -/
def repeatViolation? (earlier : List String) : List Entity → Option Violation
  | [] => none
  | e :: rest =>
    if e.name ∈ earlier then some (.duplicateEntity e.name)
    else
      ((firstRepeat [] (e.attributes.map (·.name))).map (.duplicateAttribute e.name)).or
        (repeatViolation? (e.name :: earlier) rest)

def referenceViolation? (s : Schema) (r : AttributeRef) : Option Violation :=
  match s.entity? r.entity with
  | none => some (.unknownEntity r.entity)
  | some e => if (e.attribute? r.name).isNone then some (.missingAttribute r) else none

def categoryViolation? (s : Schema) (generic category : String) : Option Violation :=
  if (s.entity? category).isNone then some (.unknownCategory generic category)
  else if category = generic then some (.selfCategory category)
  else none

def generalizationViolation? (s : Schema) (g : Generalization) : Option Violation :=
  if (s.entity? g.generic).isNone then some (.unknownGeneric g.generic)
  else g.categories.findSome? (s.categoryViolation? g.generic)

/-- The first violation: repeated names, then the ends of relationships, then generalizations one
by one, then a cycle among them. -/
def violation? (s : Schema) : Option Violation :=
  (repeatViolation? [] s.entities).or <|
  (s.relationships.findSome? fun r => [r.source, r.target].findSome? s.referenceViolation?).or <|
  (s.generalizations.findSome? s.generalizationViolation?).or <|
  s.cycle?.map .cycle

@[simp] theorem violation?_empty : empty.violation? = none := rfl

end Schema

end EntityDiagram
