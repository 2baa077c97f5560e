import EntityDiagram.Source

/-! The canonical source of a schema. Every entity is a block with one attribute in a line, the
primary key first; then every generalization is a block with one category in a line. -/
namespace EntityDiagram

/-- The label of the relationship that begins at an attribute. -/
def Schema.label? (s : Schema) (source : AttributeRef) : Option String :=
  (s.relationships.find? (·.source = source)).bind (·.label)

namespace Source

/-- Markers in a fixed order. -/
def markers (isKey : Bool) (a : Attribute) : List Char :=
  (if isKey then ['+'] else []) ++ (if a.optional then ['?'] else []) ++
    if a.many then ['*'] else []

/-- A foreign key with its label. -/
def keyText (reference : AttributeRef) (label : Option String) : List Char :=
  [' ', 'F', 'K', ' ', '-', '>', ' '] ++ reference.entity.toList ++ '.' :: reference.name.toList ++
    match label with
    | none => []
    | some label => [' ', '"'] ++ label.toList ++ ['"']

/-- The line of an attribute. -/
def Declaration.text (d : Declaration) : List Char :=
  markers d.isKey d.content ++ d.content.name.toList ++ [':', ' '] ++ d.content.type.toList ++
    match d.content.reference with
    | none => []
    | some reference => keyText reference d.label

/-- The declarations of an entity, the primary key first. -/
def declarations (s : Schema) (e : Entity) : List Declaration :=
  let declare (isKey : Bool) (a : Attribute) : Declaration := ⟨isKey, a, s.label? ⟨e.name, a.name⟩⟩
  e.key.map (declare true) ++ e.others.map (declare false)

/-- The first line of a block. -/
def headerText (keyword : List Char) (name : String) : List Char :=
  keyword ++ ' ' :: name.toList ++ [' ', '\x7b']

def entityLines (s : Schema) (e : Entity) : List (List Char) :=
  headerText entityKeyword e.name :: (declarations s e).map Declaration.text ++ [['\x7d']]

/-- The last line of a generalization, with its modifiers. -/
def closingText (g : Generalization) : List Char :=
  '\x7d' :: (if g.complete then [' ', 'c', 'o', 'm', 'p', 'l', 'e', 't', 'e'] else []) ++
    match g.discriminator with
    | none => []
    | some name =>
      [' ', 'd', 'i', 's', 'c', 'r', 'i', 'm', 'i', 'n', 'a', 't', 'o', 'r', '='] ++ name.toList

def generalizationLines (g : Generalization) : List (List Char) :=
  headerText generalizationKeyword g.generic :: g.categories.map String.toList ++ [closingText g]

/-- All lines of the canonical source. -/
def canonicalLines (s : Schema) : List (List Char) :=
  s.entities.flatMap (entityLines s) ++ s.generalizations.flatMap generalizationLines

/-- The canonical source, every line with its end. -/
def canonicalText (s : Schema) : String :=
  String.ofList ((canonicalLines s).flatMap (· ++ ['\n']))

end Source

end EntityDiagram
