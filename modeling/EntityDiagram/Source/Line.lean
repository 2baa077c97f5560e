import EntityDiagram.Text.Blank
import EntityDiagram.Text.Lines

/-! The lines of a source that mean something: stripped, numbered from one, without blank lines and
comments. -/
namespace EntityDiagram.Source

structure Line where
  number : Nat
  text : List Char
  deriving DecidableEq, Repr

/-- A comment begins with two slashes or with a number sign. -/
def isComment : List Char → Bool
  | '/' :: '/' :: _ => true
  | '#' :: _ => true
  | _ => false

def isSignificant (text : List Char) : Bool := !text.isEmpty && !isComment text

/-- Numbers lines upward, keeping the significant ones. -/
def numbered (number : Nat) : List (List Char) → List Line
  | [] => []
  | raw :: rest =>
    let text := Text.strip raw
    if isSignificant text then ⟨number, text⟩ :: numbered (number + 1) rest
    else numbered (number + 1) rest

def significantLines (source : List Char) : List Line := numbered 1 (Text.lines source)

/-- Every significant line has text. -/
theorem text_ne_nil_of_mem_numbered {number : Nat} {raws : List (List Char)} {line : Line}
    (h : line ∈ numbered number raws) : line.text ≠ [] := by
  induction raws generalizing number with
  | nil => simp [numbered] at h
  | cons raw rest ih =>
    simp only [numbered] at h
    split at h
    next hs =>
      rcases List.mem_cons.1 h with rfl | h
      · simp only [isSignificant, Bool.and_eq_true, Bool.not_eq_true',
          List.isEmpty_eq_false_iff] at hs
        exact hs.1
      · exact ih h
    next => exact ih h

end EntityDiagram.Source
