/-! What can be wrong with the form of a source. -/
namespace EntityDiagram.Source

inductive Malformation where
  | outsideBlock
  | entityHeader
  | generalizationHeader
  | openBraceExpected (name : String)
  | unclosedEntity (name : String)
  | unclosedGeneralization (generic : String)
  | attributeLine
  | repeatedMarker (marker : Char)
  | foreignKey
  | braceInType
  | generalizationToken
  | repeatedCompleteness
  | repeatedDiscriminator
  | discriminatorForm
  | unknownModifier
  deriving DecidableEq, Repr

def Malformation.message : Malformation → String
  | outsideBlock => "unexpected line outside of a block"
  | entityHeader => "malformed entity header"
  | generalizationHeader => "malformed generalization header"
  | openBraceExpected name => "expected \"\x7b\" after \"" ++ name ++ "\""
  | unclosedEntity name => "missing closing brace for entity \"" ++ name ++ "\""
  | unclosedGeneralization generic =>
    "missing closing brace for generalization \"" ++ generic ++ "\""
  | attributeLine => "unrecognized attribute line"
  | repeatedMarker marker => "marker \"" ++ marker.toString ++ "\" repeated"
  | foreignKey => "malformed foreign key reference"
  | braceInType => "unexpected brace in attribute type"
  | generalizationToken => "unexpected token in generalization"
  | repeatedCompleteness => "completeness given twice"
  | repeatedDiscriminator => "discriminator given twice"
  | discriminatorForm => "expected \"discriminator=Name\""
  | unknownModifier => "unknown generalization modifier"

/-- A malformation, the line that shows it, and the text on that line. -/
structure Malformed where
  cause : Malformation
  line : Nat
  near : List Char
  deriving DecidableEq, Repr

end EntityDiagram.Source
