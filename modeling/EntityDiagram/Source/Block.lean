import EntityDiagram.Schema

/-! Blocks of a source, in the order in which they are written, with the lines of their parts, and
the schema that they declare. Blocks may refer to each other in any order. -/
namespace EntityDiagram.Source

/-- A value and the line it comes from. -/
structure Located (α : Type) where
  line : Nat
  value : α
  deriving DecidableEq, Repr

/-- An attribute as declared, inside or outside the primary key; the label is that of the
relationship a foreign key makes. -/
structure Declaration where
  isKey : Bool
  content : Attribute
  label : Option String
  deriving DecidableEq, Repr

structure EntityBlock where
  name : String
  line : Nat
  declarations : List (Located Declaration)
  deriving DecidableEq, Repr

/-- A generalization as written: names of categories may repeat, and the modifiers after the
closing brace may be absent. -/
structure GeneralizationBlock where
  generic : String
  line : Nat
  categories : List (Located String)
  completeness : Option Bool
  discriminator : Option String
  deriving DecidableEq, Repr

inductive Block where
  | entity (block : EntityBlock)
  | generalization (block : GeneralizationBlock)
  deriving DecidableEq, Repr

namespace EntityBlock

def opened (name : String) (line : Nat) : EntityBlock := ⟨name, line, []⟩

def declare (b : EntityBlock) (d : Located Declaration) : EntityBlock :=
  { b with declarations := b.declarations ++ [d] }

/-- The declarations inside the primary key, or outside it. -/
def attributesWhere (b : EntityBlock) (isKey : Bool) : List Attribute :=
  (b.declarations.filter (·.value.isKey = isKey)).map (·.value.content)

def entity (b : EntityBlock) : Entity := ⟨b.name, b.attributesWhere true, b.attributesWhere false⟩

/-- The relationship a declaration makes when its attribute is a foreign key. -/
def relationship? (name : String) (d : Declaration) : Option Relationship :=
  d.content.reference.map fun target => ⟨⟨name, d.content.name⟩, target, d.label⟩

def relationships (b : EntityBlock) : List (Located Relationship) :=
  b.declarations.filterMap fun d => (relationship? b.name d.value).map (⟨d.line, ·⟩)

end EntityBlock

/-- Each name at its first occurrence, names met earlier left out. -/
def distinct (earlier : List String) : List (Located String) → List String
  | [] => []
  | name :: rest =>
    if name.value ∈ earlier then distinct earlier rest
    else name.value :: distinct (name.value :: earlier) rest

/-- The occurrences that `distinct` leaves out. -/
def repeats (earlier : List String) : List (Located String) → List (Located String)
  | [] => []
  | name :: rest =>
    if name.value ∈ earlier then name :: repeats earlier rest
    else repeats (name.value :: earlier) rest

/-- A category listed again in the same generalization; it is dropped. -/
structure DuplicateCategory where
  category : String
  generic : String
  line : Nat
  deriving DecidableEq, Repr

def DuplicateCategory.message (d : DuplicateCategory) : String :=
  "Category \"" ++ d.category ++ "\" listed twice in generalization \"" ++ d.generic ++
    "\" (line " ++ toString d.line ++ ")"

namespace GeneralizationBlock

def opened (generic : String) (line : Nat) : GeneralizationBlock := ⟨generic, line, [], none, none⟩

def addCategory (b : GeneralizationBlock) (category : Located String) : GeneralizationBlock :=
  { b with categories := b.categories ++ [category] }

def generalization (b : GeneralizationBlock) : Generalization :=
  ⟨b.generic, distinct [] b.categories, b.completeness.getD false, b.discriminator⟩

def duplicates (b : GeneralizationBlock) : List DuplicateCategory :=
  (repeats [] b.categories).map fun name => ⟨name.value, b.generic, name.line⟩

end GeneralizationBlock

namespace Block

def entity? : Block → Option EntityBlock
  | entity block => some block
  | generalization _ => none

def generalization? : Block → Option GeneralizationBlock
  | entity _ => none
  | generalization block => some block

/-- The relationships of all blocks, in the order of their foreign keys. -/
def relationships (blocks : List Block) : List (Located Relationship) :=
  (blocks.filterMap entity?).flatMap (·.relationships)

/-- The duplicate categories of all blocks. -/
def duplicateCategories (blocks : List Block) : List DuplicateCategory :=
  (blocks.filterMap generalization?).flatMap (·.duplicates)

/-- What the blocks declare. -/
def schema (blocks : List Block) : Schema where
  entities := (blocks.filterMap entity?).map (·.entity)
  relationships := (relationships blocks).map (·.value)
  generalizations := (blocks.filterMap generalization?).map (·.generalization)

@[simp] theorem schema_nil : schema [] = Schema.empty := rfl

@[simp] theorem relationships_append (b c : List Block) :
    relationships (b ++ c) = relationships b ++ relationships c := by simp [relationships]

@[simp] theorem duplicateCategories_append (b c : List Block) :
    duplicateCategories (b ++ c) = duplicateCategories b ++ duplicateCategories c := by
  simp [duplicateCategories]

@[simp] theorem schema_entities_append (b c : List Block) :
    (schema (b ++ c)).entities = (schema b).entities ++ (schema c).entities := by simp [schema]

@[simp] theorem schema_relationships_append (b c : List Block) :
    (schema (b ++ c)).relationships = (schema b).relationships ++ (schema c).relationships := by
  simp [schema]

@[simp] theorem schema_generalizations_append (b c : List Block) :
    (schema (b ++ c)).generalizations =
      (schema b).generalizations ++ (schema c).generalizations := by
  simp [schema]

end Block

end EntityDiagram.Source
