import EntityDiagram.Text.Blank
import EntityDiagram.Text.WordChar

/-! The form of an attribute line: markers, a name, a colon, a type, and perhaps a foreign key with
a label. The type ends where the rest of the line is a complete foreign key; where no rest is one,
the type is all that follows the colon. -/
namespace EntityDiagram.Source

open Text

/-- A nonempty name at the front, and what follows it. -/
def name? (text : List Char) : Option (List Char × List Char) :=
  if (word text).isEmpty then none else some (word text, afterWord text)

/-- What follows the blanks at the front, of which there is at least one. -/
def afterBlanks? : List Char → Option (List Char)
  | [] => none
  | c :: rest => if isBlank c then some (dropBlanks rest) else none

/-- A foreign key as written: the attribute it refers to and a label. -/
structure ForeignKey where
  entity : List Char
  name : List Char
  label : Option (List Char)
  deriving DecidableEq, Repr

/-- Nothing, or blanks and a label in quotes, and blanks up to the end of the line. -/
def label? (text : List Char) : Option (Option (List Char)) :=
  if (dropBlanks text).isEmpty then some none
  else do
    let quoted ← ['"'].isPrefixOf? (← afterBlanks? text)
    let rest ← ['"'].isPrefixOf? (quoted.dropWhile (· ≠ '"'))
    if (dropBlanks rest).isEmpty then some (some (quoted.takeWhile (· ≠ '"'))) else none

/-- Blanks, `FK`, an arrow, an entity, a point and an attribute, and perhaps a label. -/
def foreignKey? (text : List Char) : Option ForeignKey := do
  let afterKey ← ['F', 'K'].isPrefixOf? (← afterBlanks? text)
  let afterArrow ← ['-', '>'].isPrefixOf? (dropBlanks afterKey)
  let (entity, afterEntity) ← name? (dropBlanks afterArrow)
  let afterPoint ← ['.'].isPrefixOf? (dropBlanks afterEntity)
  let (name, afterName) ← name? (dropBlanks afterPoint)
  let label ← label? afterName
  return ⟨entity, name, label⟩

/-- The shortest nonempty type that a complete foreign key follows, or all of the text. -/
def splitType : List Char → List Char × Option ForeignKey
  | [] => ([], none)
  | c :: rest =>
    match foreignKey? rest with
    | some key => ([c], some key)
    | none => (c :: (splitType rest).1, (splitType rest).2)

/-- An attribute line taken apart; the markers are without blanks. -/
structure AttributeLine where
  markers : List Char
  name : List Char
  type : List Char
  foreignKey : Option ForeignKey
  deriving DecidableEq, Repr

def isMarker (c : Char) : Bool := c == '+' || c == '?' || c == '*'

/-- Takes a line apart. -/
def attributeLine? (line : List Char) : Option AttributeLine := do
  let front (c : Char) := isMarker c || isBlank c
  let (name, afterName) ← name? (line.dropWhile front)
  let afterColon ← [':'].isPrefixOf? (dropBlanks afterName)
  let typed := dropBlanks afterColon
  if typed.isEmpty then none
  else
    let (type, foreignKey) := splitType typed
    some ⟨(line.takeWhile front).filter isMarker, name, type, foreignKey⟩

/-- The first marker, of the three in their order, that is given more than once. -/
def repeatedMarker? (markers : List Char) : Option Char :=
  ['+', '?', '*'].find? fun marker => 1 < markers.count marker

/-- Whether the text begins with `FK` as a whole word. -/
def beginsWithKey (text : List Char) : Bool :=
  match ['F', 'K'].isPrefixOf? text with
  | none => false
  | some rest => rest.head?.all fun c => !isWordChar c

/-- Whether `FK` stands in the text as a whole word. -/
def mentionsKey : (afterWord : Bool) → List Char → Bool
  | _, [] => false
  | afterWord, c :: rest =>
    (!afterWord && beginsWithKey (c :: rest)) || mentionsKey (isWordChar c) rest

def mentionsArrow : List Char → Bool
  | [] => false
  | '-' :: '>' :: _ => true
  | _ :: rest => mentionsArrow rest

/-- A type that contains the beginnings of a foreign key. -/
def hasKeyFragment (type : List Char) : Bool := mentionsKey false type || mentionsArrow type

def hasBrace (type : List Char) : Bool := type.any fun c => c == '\x7b' || c == '\x7d'

example : (attributeLine? "?* a : t FK -> B.b \"x\"".toList).map (·.foreignKey) =
    some (some ⟨['B'], ['b'], some ['x']⟩) := by decide +kernel

example : (attributeLine? "a : t FK -> B".toList).map (·.type) =
    some "t FK -> B".toList := by decide +kernel

end EntityDiagram.Source
