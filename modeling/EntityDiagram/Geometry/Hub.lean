import EntityDiagram.Geometry.Failure
import EntityDiagram.Primitive

/-! Generalizations: a junction under the generic entity with one or two lines below it, and a
connector from there to each category. Complete generalizations have two lines. -/
namespace EntityDiagram

/-- The junction of a generalization, given by its center. -/
structure Hub (α : Type) where
  center : Point α
  complete : Bool
  discriminator : Option String
  deriving DecidableEq, Repr

namespace Hub

variable {α : Type} [Scalar α]

def radius : α := 8

/-- The height of the first line under the junction. -/
def underlineY (h : Hub α) : α := h.center.y + radius + 8

/-- Where connectors to categories start: the middle of the first line. -/
def anchor (h : Hub α) : Point α := ⟨h.center.x, h.underlineY⟩

def underlineYs (h : Hub α) : List α :=
  h.underlineY :: if h.complete then [h.underlineY + 6] else []

def circle (h : Hub α) : Primitive α := .circle h.center radius .generalizationJunction

def underlines (h : Hub α) : List (Primitive α) :=
  h.underlineYs.map fun y => .underline ⟨h.center.x - 20, y⟩ ⟨h.center.x + 20, y⟩

/-- The discriminator beside the junction; an empty one is not drawn. -/
def label? (h : Hub α) : Option (Primitive α) :=
  (h.discriminator.filter (· ≠ "")).map fun content =>
    .text ⟨h.center.x + radius + 12, h.center.y + 4⟩ content .start .discriminator

def primitives (h : Hub α) : List (Primitive α) := h.circle :: h.underlines ++ h.label?.toList

/-- The junction below a generic entity, on whole coordinates. -/
def below (generic : Rect α) (complete : Bool) (discriminator subject : Option String) :
    Except (Failure α) (Hub α) := do
  checkFinite subject generic.numbers
  let x ← roundedHalfUp (generic.x + generic.width / 2)
  let bottom ← roundedHalfUp generic.bottom
  return ⟨⟨x, bottom + 18⟩, complete, discriminator⟩

end Hub

section

variable {α : Type} [Scalar α]

/-- Down from an anchor, across to the center of the category, and down to its top, bending
half-way. -/
def categoryPoints (anchor : Point α) (category : Rect α) (subject : Option String) :
    Except (Failure α) (List (Point α)) := do
  checkFinite subject category.numbers
  let x ← roundedHalfUp (category.x + category.width / 2)
  let y ← roundedHalfUp category.y
  let middle ← roundedHalfUp (anchor.y + (y - anchor.y) / 2)
  return [anchor, ⟨anchor.x, middle⟩, ⟨x, middle⟩, ⟨x, y⟩]

def categoryConnector (anchor : Point α) (category : Rect α) (subject : Option String) :
    Except (Failure α) (Primitive α) :=
  (categoryPoints anchor category subject).map (.path · .generalization)

end

/-- A hub and the connectors to all of its categories. -/
structure GeneralizationPlan (α : Type) where
  hub : Hub α
  connectors : List (Primitive α)
  deriving DecidableEq, Repr

namespace GeneralizationPlan

variable {α : Type} [Scalar α]

def primitives (p : GeneralizationPlan α) : List (Primitive α) := p.hub.primitives ++ p.connectors

/-- The plan of a generalization between given boxes; it fails as a whole. -/
def ofRects (generic : Rect α) (categories : List (Rect α)) (complete : Bool)
    (discriminator : Option String) : Except (Failure α) (GeneralizationPlan α) := do
  let hub ← Hub.below generic complete discriminator none
  let connectors ← categories.mapM fun category => categoryConnector hub.anchor category none
  return ⟨hub, connectors⟩

end GeneralizationPlan

end EntityDiagram
