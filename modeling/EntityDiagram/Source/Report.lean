import EntityDiagram.Source

/-! What is reported while a source is read. A category that is listed again is reported where it
stands, so a reading that fails further down has reported it too. -/
namespace EntityDiagram.Source

open Text

/-- A generalization with the categories among some tokens: up to the closing brace, to the end of
the line or to the first token that cannot stand there. -/
def GeneralizationBlock.takeCategories (block : GeneralizationBlock) (number : Nat) :
    List Token → GeneralizationBlock
  | .comma :: rest => block.takeCategories number rest
  | .run name :: rest =>
    if isName name then (block.addCategory ⟨number, nameOf name⟩).takeCategories number rest
    else block
  | _ => block

/-- The generalization that a line begins, as far as the line says. -/
def generalizationFrom (line : Line) : List Block :=
  match header? generalizationKeyword line.text with
  | none => []
  | some (generic, rest) =>
    let block := GeneralizationBlock.opened (nameOf generic) line.number
    match Token.ofText rest with
    | .openBrace :: tokens => [.generalization (block.takeCategories line.number tokens)]
    | _ => [.generalization block]

/-- What a malformed line leaves of a generalization, as far as the line was read. -/
def Context.cutOff (context : Context) (line : Line) : List Block :=
  match context with
  | outside => generalizationFrom line
  | generalizationBody block =>
    if isBlockStart line.text then []
    else [.generalization (block.takeCategories line.number (Token.ofText line.text))]
  | generalizationEnd block =>
    if beginsWith entityKeyword line.text || beginsWith generalizationKeyword line.text then
      generalizationFrom line
    else if beginsWithModifier line.text then [.generalization block]
    else []
  | _ => []

/-- The blocks of some lines, the last one as far as it is read before a malformation. -/
def Context.blocksRead (context : Context) : List Line → List Block
  | [] => context.blocks
  | line :: rest =>
    let step := context.step line
    match step.next with
    | .error _ => step.blocks ++ context.cutOff line
    | .ok next => step.blocks ++ next.blocksRead rest

/-- The blocks before the first entity in which a name is declared again. -/
def beforeRepeat (earlier : List EntityBlock) : List Block → List Block
  | [] => []
  | .generalization b :: rest => .generalization b :: beforeRepeat earlier rest
  | .entity b :: rest =>
    match repeatError? earlier [b] with
    | some _ => []
    | none => .entity b :: beforeRepeat (b :: earlier) rest

/-- The duplicate categories that are reported while a source is read, whether it is accepted or
not. -/
def reported (source : String) : List DuplicateCategory :=
  Block.duplicateCategories <|
    beforeRepeat [] (Context.outside.blocksRead (significantLines source.toList))

example : reported "Generalization P \x7b A, B A, - B \x7d" = [⟨"A", "P", 1⟩] := by
  decide +kernel

end EntityDiagram.Source
