import EntityDiagram.Message
import EntityDiagram.Source.Scan
import EntityDiagram.Schema.Validity

/-! From source text to a schema. Blocks are read first, and names must not be declared twice; then
every reference must lead to a declaration. The first fault in this order stops the reading. -/
namespace EntityDiagram.Source

/-- Why a source is not a schema. -/
inductive SourceError where
  | malformed (fault : Malformed)
  /-- An entity declared again, with the line of its first declaration. -/
  | redeclared (name : String) (first line : Nat)
  | invalid (violation : Violation) (line : Option Nat)
  deriving DecidableEq, Repr

namespace SourceError

def line? : SourceError → Option Nat
  | malformed fault => some fault.line
  | redeclared _ _ line => some line
  | invalid _ line => line

/-- The text on the line that the error is about. -/
def near : SourceError → String
  | malformed fault => String.ofList fault.near
  | redeclared name _ _ => name
  | invalid violation _ => violation.token

/-- The wording for references that lead to no declaration; other violations are worded alike in
sources and in schemas. -/
def violationText : Violation → String
  | .unknownEntity name => "foreign key refers to undeclared entity \"" ++ name ++ "\""
  | .unknownGeneric generic =>
    "generalization refers to undeclared entity \"" ++ generic ++ "\""
  | .unknownCategory generic category =>
    "generalization \"" ++ generic ++ "\" refers to undeclared category \"" ++ category ++ "\""
  | other => other.message

def text : SourceError → String
  | malformed fault => fault.cause.message
  | redeclared name first _ =>
    "duplicate entity \"" ++ name ++ "\" (first declared on line " ++ toString first ++ ")"
  | invalid violation _ => violationText violation

def message (e : SourceError) : String :=
  located e.text (e.line?.map Int.ofNat) (some e.near)

end SourceError

/-- The first declaration whose attribute was declared earlier in its entity. -/
def repeatedDeclaration? (earlier : List String) :
    List (Located Declaration) → Option (Located Declaration)
  | [] => none
  | d :: rest =>
    if d.value.content.name ∈ earlier then some d
    else repeatedDeclaration? (d.value.content.name :: earlier) rest

/-- The first name declared twice: each entity before its attributes. -/
def repeatError? (earlier : List EntityBlock) : List EntityBlock → Option SourceError
  | [] => none
  | b :: rest =>
    match earlier.find? (·.name = b.name) with
    | some first => some (.redeclared b.name first.line b.line)
    | none =>
      match repeatedDeclaration? [] b.declarations with
      | some d => some (.invalid (.duplicateAttribute b.name d.value.content.name) (some d.line))
      | none => repeatError? (b :: earlier) rest

/-- The blocks of a source, without following references. -/
def readBlocks (source : List Char) : Except SourceError (List Block) :=
  let scan := Context.outside.scan (significantLines source)
  match repeatError? [] (scan.blocks.filterMap Block.entity?), scan.malformed? with
  | some repeated, _ => .error repeated
  | none, some fault => .error (.malformed fault)
  | none, none => .ok scan.blocks

/-- The first relationship whose target is not declared. -/
def targetError? (schema : Schema) (r : Located Relationship) : Option SourceError :=
  (schema.referenceViolation? r.value.target).map (.invalid · (some r.line))

/-- The first undeclared name of a generalization. -/
def generalizationError? (schema : Schema) (b : GeneralizationBlock) : Option SourceError :=
  (schema.generalizationViolation? b.generalization).map (.invalid · (some b.line))

/-- A cycle of generalizations, reported at the first block of its first entity. -/
def cycleError? (schema : Schema) (blocks : List GeneralizationBlock) : Option SourceError :=
  schema.cycle?.map fun names =>
    .invalid (.cycle names) ((blocks.find? fun b => names.head? = some b.generic).map (·.line))

/-- The first reference that leads to no declaration, or a cycle. -/
def referenceError? (blocks : List Block) : Option SourceError :=
  let schema := Block.schema blocks
  let generalizations := blocks.filterMap Block.generalization?
  ((Block.relationships blocks).findSome? (targetError? schema)).or <|
  (generalizations.findSome? (generalizationError? schema)).or <|
  cycleError? schema generalizations

/-- A schema, and the categories that its source lists twice. -/
structure Document where
  schema : Schema
  duplicates : List DuplicateCategory
  deriving DecidableEq, Repr

/-- Follows the references of blocks. -/
def resolve (blocks : List Block) : Except SourceError Document :=
  match referenceError? blocks with
  | some fault => .error fault
  | none => .ok ⟨Block.schema blocks, Block.duplicateCategories blocks⟩

/-- Reads a source. -/
def parse (source : String) : Except SourceError Document :=
  readBlocks source.toList >>= resolve

end EntityDiagram.Source
