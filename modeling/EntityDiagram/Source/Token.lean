import EntityDiagram.Text.Blank

/-! Tokens of generalization lines: four marks, and runs of other characters that are not blank. -/
namespace EntityDiagram.Source

inductive Token where
  | openBrace
  | closeBrace
  | equals
  | comma
  | run (text : List Char)
  deriving DecidableEq, Repr

namespace Token

/-- The token that a mark is. -/
def mark? : Char → Option Token
  | '\x7b' => some openBrace
  | '\x7d' => some closeBrace
  | '=' => some equals
  | ',' => some comma
  | _ => none

def text : Token → List Char
  | openBrace => ['\x7b']
  | closeBrace => ['\x7d']
  | equals => ['=']
  | comma => [',']
  | run text => text

/-- Whether a character belongs to a run. -/
def isRunChar (c : Char) : Bool := !Text.isBlank c && (mark? c).isNone

/-- Cuts text into tokens. A run takes in every run character that follows. -/
def ofText : List Char → List Token
  | [] => []
  | c :: rest =>
    if Text.isBlank c then ofText rest
    else
      match mark? c with
      | some mark => mark :: ofText rest
      | none =>
        match rest.head?.any isRunChar, ofText rest with
        | true, run text :: others => run (c :: text) :: others
        | _, others => run [c] :: others

example : ofText "a, b \x7d x=y".toList =
    [run ['a'], comma, run ['b'], closeBrace, run ['x'], equals, run ['y']] := by decide +kernel

end Token

end EntityDiagram.Source
