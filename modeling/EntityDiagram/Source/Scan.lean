import EntityDiagram.Source.AttributeLine
import EntityDiagram.Source.Block
import EntityDiagram.Source.Line
import EntityDiagram.Source.Malformed
import EntityDiagram.Source.Token

/-! Reading blocks line by line. What is open between two lines is a context; a line closes blocks
and leaves a new context, or shows a malformation. References between blocks are not followed. -/
namespace EntityDiagram.Source

open Text

/-- What is open between two lines. A generalization that has been closed still takes modifiers
until the next block. -/
inductive Context where
  | outside
  | entityHeader (block : EntityBlock)
  | entityBody (block : EntityBlock)
  | generalizationHeader (block : GeneralizationBlock)
  | generalizationBody (block : GeneralizationBlock)
  | generalizationEnd (block : GeneralizationBlock)
  deriving DecidableEq, Repr

/-- The block that a context holds. -/
def Context.blocks : Context → List Block
  | outside => []
  | entityHeader block | entityBody block => [.entity block]
  | generalizationHeader block | generalizationBody block | generalizationEnd block =>
    [.generalization block]

/-- The effect of a line: the blocks it closes and what is open afterwards. After a malformation
the blocks include the one that was open. -/
structure Step where
  blocks : List Block
  next : Except Malformed Context

/-- A line that leaves a context and closes nothing. -/
def Step.to (context : Context) : Step := ⟨[], .ok context⟩

def entityKeyword : List Char := ['E', 'n', 't', 'i', 't', 'y']

def generalizationKeyword : List Char :=
  ['G', 'e', 'n', 'e', 'r', 'a', 'l', 'i', 'z', 'a', 't', 'i', 'o', 'n']

/-- Whether a line begins with a keyword as a whole word. -/
def beginsWith (keyword text : List Char) : Bool :=
  match keyword.isPrefixOf? text with
  | none => false
  | some rest => rest.head?.all fun c => !isWordChar c

/-- A keyword, blanks and a name; what follows the name is left. -/
def header? (keyword text : List Char) : Option (List Char × List Char) := do
  let afterKeyword ← keyword.isPrefixOf? text
  name? (← afterBlanks? afterKeyword)

/-- Inside a block such a line means that the block was not closed. -/
def isBlockStart (text : List Char) : Bool :=
  (header? entityKeyword text).isSome || (header? generalizationKeyword text).isSome

/-- A name from the characters of a source. -/
def nameOf (text : List Char) : String := String.ofList text

/-- The reference and the label of a foreign key; an empty label is none. -/
def ForeignKey.reference (key : ForeignKey) : AttributeRef := ⟨nameOf key.entity, nameOf key.name⟩

def ForeignKey.labelText? (key : ForeignKey) : Option String :=
  match key.label with
  | none | some [] => none
  | some text => some (String.ofList text)

/-- What an attribute line declares. -/
def AttributeLine.declaration (a : AttributeLine) : Declaration where
  isKey := a.markers.contains '+'
  content :=
    { name := nameOf a.name
      type := String.ofList a.type
      optional := a.markers.contains '?'
      many := a.markers.contains '*'
      reference := a.foreignKey.map (·.reference) }
  label := a.foreignKey.bind (·.labelText?)

/-- Reads an attribute line: its form first, then its markers, then its type. -/
def readAttribute (line : Line) : Except Malformed (Located Declaration) :=
  match attributeLine? line.text with
  | none => .error ⟨.attributeLine, line.number, line.text⟩
  | some a =>
    match repeatedMarker? a.markers with
    | some marker => .error ⟨.repeatedMarker marker, line.number, a.markers⟩
    | none =>
      if hasKeyFragment a.type then .error ⟨.foreignKey, line.number, a.type⟩
      else if hasBrace a.type then .error ⟨.braceInType, line.number, a.type⟩
      else .ok ⟨line.number, a.declaration⟩

/-- The text before a closing brace at the end of a line, and whether there is such a brace. -/
def splitClose (text : List Char) : List Char × Bool :=
  if text.getLast? = some '\x7d' then (dropLastBlanks text.dropLast, true) else (text, false)

/-- A line of an entity block, perhaps empty: an attribute, a closing brace, or both. -/
def entityLine (block : EntityBlock) (line : Line) : Step :=
  let (text, closes) := splitClose line.text
  let finish (block : EntityBlock) : Step :=
    if closes then ⟨[.entity block], .ok .outside⟩ else .to (.entityBody block)
  if text.isEmpty then finish block
  else
    match readAttribute ⟨line.number, text⟩ with
    | .error fault => ⟨[.entity block], .error fault⟩
    | .ok declaration => finish (block.declare declaration)

/-- The first line of an entity block. What follows the opening brace is a line of the block. -/
def entityStart (line : Line) : Step :=
  match header? entityKeyword line.text with
  | none => ⟨[], .error ⟨.entityHeader, line.number, line.text⟩⟩
  | some (name, rest) =>
    let block := EntityBlock.opened (nameOf name) line.number
    match strip rest with
    | [] => .to (.entityHeader block)
    | '\x7b' :: body => entityLine block ⟨line.number, strip body⟩
    | other =>
      ⟨[.entity block], .error ⟨.openBraceExpected block.name, line.number, firstRun other⟩⟩

/-- The words that state completeness. -/
def completeness? (word : List Char) : Option Bool :=
  if word = ['c', 'o', 'm', 'p', 'l', 'e', 't', 'e'] then some true
  else if word = ['i', 'n', 'c', 'o', 'm', 'p', 'l', 'e', 't', 'e'] then some false
  else none

def isDiscriminator (word : List Char) : Bool :=
  word == ['d', 'i', 's', 'c', 'r', 'i', 'm', 'i', 'n', 'a', 't', 'o', 'r']

/-- Modifiers after the closing brace: completeness and a discriminator, each at most once. -/
def readModifiers (block : GeneralizationBlock) (number : Nat) :
    List Token → Except Malformed GeneralizationBlock
  | [] => .ok block
  | .run word :: rest =>
    match completeness? word with
    | some complete =>
      if block.completeness.isSome then .error ⟨.repeatedCompleteness, number, word⟩
      else readModifiers { block with completeness := some complete } number rest
    | none =>
      if isDiscriminator word then
        if block.discriminator.isSome then .error ⟨.repeatedDiscriminator, number, word⟩
        else
          match rest with
          | .equals :: .run name :: others =>
            if isName name then
              readModifiers { block with discriminator := some (nameOf name) } number others
            else .error ⟨.discriminatorForm, number, word⟩
          | _ => .error ⟨.discriminatorForm, number, word⟩
      else .error ⟨.unknownModifier, number, word⟩
  | token :: _ => .error ⟨.unknownModifier, number, token.text⟩

/-- The tokens of a generalization block: categories, with commas wherever they stand, and modifiers
once the brace is closed. -/
def readCategories (block : GeneralizationBlock) (number : Nat) :
    List Token → Except Malformed Context
  | [] => .ok (.generalizationBody block)
  | .closeBrace :: rest => (readModifiers block number rest).map .generalizationEnd
  | .comma :: rest => readCategories block number rest
  | .run name :: rest =>
    if isName name then readCategories (block.addCategory ⟨number, nameOf name⟩) number rest
    else .error ⟨.generalizationToken, number, name⟩
  | token :: _ => .error ⟨.generalizationToken, number, token.text⟩

/-- The first line of a generalization block. -/
def generalizationStart (line : Line) : Step :=
  match header? generalizationKeyword line.text with
  | none => ⟨[], .error ⟨.generalizationHeader, line.number, line.text⟩⟩
  | some (generic, rest) =>
    let block := GeneralizationBlock.opened (nameOf generic) line.number
    match Token.ofText rest with
    | [] => .to (.generalizationHeader block)
    | .openBrace :: tokens => ⟨[], readCategories block line.number tokens⟩
    | token :: _ => ⟨[], .error ⟨.openBraceExpected block.generic, line.number, token.text⟩⟩

/-- A line outside of blocks begins a block. -/
def blockStart (line : Line) : Step :=
  if beginsWith entityKeyword line.text then entityStart line
  else if beginsWith generalizationKeyword line.text then generalizationStart line
  else ⟨[], .error ⟨.outsideBlock, line.number, firstRun line.text⟩⟩

/-- Whether the first word of a line, up to an equals sign, is a modifier. -/
def beginsWithModifier (text : List Char) : Bool :=
  let first := (firstRun text).takeWhile (· ≠ '=')
  (completeness? first).isSome || isDiscriminator first

/-- Reads one line. -/
def Context.step (context : Context) (line : Line) : Step :=
  match context with
  | outside => blockStart line
  | entityHeader block =>
    match line.text with
    | '\x7b' :: body => entityLine block ⟨line.number, strip body⟩
    | _ =>
      ⟨[.entity block], .error ⟨.openBraceExpected block.name, block.line, block.name.toList⟩⟩
  | entityBody block =>
    if isBlockStart line.text then
      ⟨[.entity block], .error ⟨.unclosedEntity block.name, line.number, firstRun line.text⟩⟩
    else entityLine block line
  | generalizationHeader block =>
    if line.text = ['\x7b'] then .to (.generalizationBody block)
    else
      ⟨[.generalization block],
        .error ⟨.openBraceExpected block.generic, block.line, block.generic.toList⟩⟩
  | generalizationBody block =>
    if isBlockStart line.text then
      ⟨[.generalization block],
        .error ⟨.unclosedGeneralization block.generic, line.number, firstRun line.text⟩⟩
    else ⟨[], readCategories block line.number (Token.ofText line.text)⟩
  | generalizationEnd block =>
    if beginsWith entityKeyword line.text || beginsWith generalizationKeyword line.text then
      let start := blockStart line
      { start with blocks := .generalization block :: start.blocks }
    else if beginsWithModifier line.text then
      ⟨[], (readModifiers block line.number (Token.ofText line.text)).map .generalizationEnd⟩
    else ⟨[.generalization block], .error ⟨.outsideBlock, line.number, firstRun line.text⟩⟩

/-- What is wrong with a source that ends in a context. -/
def Context.unfinished? : Context → Option Malformed
  | outside | generalizationEnd _ => none
  | entityHeader block => some ⟨.openBraceExpected block.name, block.line, block.name.toList⟩
  | entityBody block => some ⟨.unclosedEntity block.name, block.line, block.name.toList⟩
  | generalizationHeader block =>
    some ⟨.openBraceExpected block.generic, block.line, block.generic.toList⟩
  | generalizationBody block =>
    some ⟨.unclosedGeneralization block.generic, block.line, block.generic.toList⟩

/-- The blocks up to the end of the source or up to the first malformation. -/
structure Scan where
  blocks : List Block
  malformed? : Option Malformed

/-- Reads lines from a context on. -/
def Context.scan (context : Context) : List Line → Scan
  | [] => ⟨context.blocks, context.unfinished?⟩
  | line :: rest =>
    let step := context.step line
    match step.next with
    | .error fault => ⟨step.blocks, some fault⟩
    | .ok next =>
      let others := next.scan rest
      ⟨step.blocks ++ others.blocks, others.malformed?⟩

end EntityDiagram.Source
