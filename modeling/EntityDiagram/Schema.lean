/-! Entities, their attributes, and what joins them. Names are looked up by first occurrence, so
every question has an answer for schemas with repeated names as well. -/
namespace EntityDiagram

/-- An attribute named together with its entity. -/
structure AttributeRef where
  entity : String
  name : String
  deriving DecidableEq, Repr

structure Attribute where
  name : String
  /-- Free text. -/
  type : String
  optional : Bool
  /-- Holds several values. -/
  many : Bool
  /-- What a foreign key refers to. -/
  reference : Option AttributeRef
  deriving DecidableEq, Repr

structure Entity where
  name : String
  key : List Attribute
  /-- The attributes outside the primary key. -/
  others : List Attribute
  deriving DecidableEq, Repr

/-- A connection from a foreign key to the attribute it refers to. -/
structure Relationship where
  source : AttributeRef
  target : AttributeRef
  label : Option String
  deriving DecidableEq, Repr

structure Generalization where
  generic : String
  categories : List String
  complete : Bool
  discriminator : Option String
  deriving DecidableEq, Repr

structure Schema where
  entities : List Entity
  relationships : List Relationship
  generalizations : List Generalization
  deriving DecidableEq, Repr

namespace Entity

/-- All attributes, the primary key first. -/
def attributes (e : Entity) : List Attribute := e.key ++ e.others

/-- An entity without a primary key depends on another for its identity. -/
def isWeak (e : Entity) : Bool := e.key.isEmpty

def attribute? (e : Entity) (name : String) : Option Attribute :=
  e.attributes.find? (·.name = name)

end Entity

namespace Schema

def empty : Schema := ⟨[], [], []⟩

def entity? (s : Schema) (name : String) : Option Entity := s.entities.find? (·.name = name)

/-- A relationship is identifying when its foreign key is part of the primary key of its source. -/
def isIdentifying (s : Schema) (r : Relationship) : Bool :=
  match s.entity? r.source.entity with
  | none => false
  | some source =>
    source.key.any fun a => a.name = r.source.name ∧ a.reference = some r.target

end Schema

/-- The text of an attribute in a box: its name, its marks and its type. -/
def Attribute.row (a : Attribute) : String :=
  a.name ++ (if a.optional then " (O)" else "") ++ (if a.many then " (M)" else "") ++ " : " ++
    a.type

end EntityDiagram
