import EntityDiagram.Decimal

/-! Messages together with what they are about. -/
namespace EntityDiagram

/-- A message with the line it is about in front and the text it is about behind. An empty text is
not shown. -/
def located (message : String) (line : Option Int) (near : Option String) : String :=
  let placed :=
    match line with
    | none => message
    | some number => "line " ++ toString number ++ ": " ++ message
  match near with
  | none | some "" => placed
  | some text => placed ++ " (near \"" ++ text ++ "\")"

/-- A message with the subject it is about in front and coordinates behind; an empty subject and
an empty list of coordinates are not shown. -/
def withSubject {α : Type} [Scalar α] (message : String) (subject : Option String)
    (coordinates : Option (List α)) : String :=
  let subjectText :=
    match subject with
    | none | some "" => ""
    | some name => name ++ ": "
  let coordinatesText :=
    match coordinates with
    | none | some [] => ""
    | some numbers => " (" ++ ", ".intercalate (numbers.map Scalar.text) ++ ")"
  subjectText ++ message ++ coordinatesText

end EntityDiagram
