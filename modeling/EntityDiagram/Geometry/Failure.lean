import EntityDiagram.Diagram
import EntityDiagram.Message
import EntityDiagram.Schema.Cardinality

/-! Why a part of a drawing cannot be computed. A failing part is reported and the rest is drawn;
a fault of arithmetic ends the drawing. -/
namespace EntityDiagram

inductive GeometryCause where
  | nonFinite
  | sharedCenter
  | coincidentEndpoints
  | noPosition
  | noBounds
  deriving DecidableEq, Repr

def GeometryCause.message : GeometryCause → String
  | nonFinite => "non-finite coordinate"
  | sharedCenter => "entities share the same center"
  | coincidentEndpoints => "relationship endpoints coincide"
  | noPosition => "entity has no position"
  | noBounds => "entity has no measured bounds"

structure GeometryError (α : Type) where
  cause : GeometryCause
  subject : Option String
  coordinates : Option (List α)
  deriving DecidableEq, Repr

def GeometryError.message {α : Type} [Scalar α] (e : GeometryError α) : String :=
  withSubject e.cause.message e.subject e.coordinates

/-- An error that is reported next to the rest of a drawing. -/
inductive PartError (α : Type) where
  | geometry (error : GeometryError α)
  | inconsistency (error : Inconsistency)
  deriving DecidableEq, Repr

def PartError.message {α : Type} [Scalar α] : PartError α → String
  | geometry error => error.message
  | inconsistency error => error.message

inductive Failure (α : Type) where
  | part (error : PartError α)
  | arithmetic (fault : ArithmeticFault)
  deriving DecidableEq, Repr

namespace Failure

variable {α : Type}

def geometry (cause : GeometryCause) (subject : Option String) (coordinates : List α) : Failure α :=
  part (.geometry ⟨cause, subject, some coordinates⟩)

end Failure

section

variable {α : Type} [Scalar α]

/-- Refuses numbers that are not finite; all of them are reported. Numbers that are too large can be
neither examined nor reported. -/
def checkFinite (subject : Option String) (numbers : List α) : Except (Failure α) Unit :=
  if numbers.all Scalar.isFinite then .ok ()
  else if numbers.all Scalar.fits then .error (.geometry .nonFinite subject numbers)
  else .error (.arithmetic .tooLarge)

/-- A division inside a part. -/
def quotientOf (a b : α) : Except (Failure α) α := (Scalar.quotient a b).mapError .arithmetic

/-- A rounding inside a part. -/
def roundedHalfUp (a : α) : Except (Failure α) α := (Scalar.roundHalfUp a).mapError .arithmetic

/-- The rectangle of an entity; its position and its bounds must be known. -/
def Node.rect (n : Node α) : Except (Failure α) (Rect α) :=
  match n.position, n.bounds with
  | none, _ => .error (.part (.geometry ⟨.noPosition, some n.name, none⟩))
  | some _, none => .error (.part (.geometry ⟨.noBounds, some n.name, none⟩))
  | some position, some bounds => .ok ⟨position.x, position.y, bounds.width, bounds.height⟩

end

end EntityDiagram
