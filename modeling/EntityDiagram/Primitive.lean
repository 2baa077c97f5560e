import EntityDiagram.Plane

/-! What a drawing is made of. Styles name what is drawn, never how. -/
namespace EntityDiagram

inductive BoxStyle where
  | strongEntity
  | weakEntity
  deriving DecidableEq, Repr

inductive PathStyle where
  | identifying
  | nonIdentifying
  | generalization
  deriving DecidableEq, Repr

inductive TextStyle where
  | relationshipLabel
  | cardinality
  | discriminator
  deriving DecidableEq, Repr

inductive TextAnchor where
  | start
  | middle
  | finish
  deriving DecidableEq, Repr

inductive CircleStyle where
  | cardinalityDot
  | generalizationJunction
  deriving DecidableEq, Repr

def BoxStyle.tag : BoxStyle → String
  | strongEntity => "strong-entity"
  | weakEntity => "weak-entity"

def PathStyle.tag : PathStyle → String
  | identifying => "identifying"
  | nonIdentifying => "non-identifying"
  | generalization => "generalization"

def TextStyle.tag : TextStyle → String
  | relationshipLabel => "relationship-label"
  | cardinality => "cardinality"
  | discriminator => "discriminator"

def TextAnchor.tag : TextAnchor → String
  | start => "start"
  | middle => "middle"
  | finish => "end"

def CircleStyle.tag : CircleStyle → String
  | cardinalityDot => "cardinality-dot"
  | generalizationJunction => "generalization-junction"

/-- The style of the lines under a generalization junction. -/
def underlineTag : String := "generalization-underline"

/-- The style of the square at an optional foreign key outside the primary key. -/
def optionalMarkerTag : String := "non-identifying-optional"

/-- The box of an entity: a title and rows of text, the key rows first. -/
structure Box (α : Type) where
  rect : Rect α
  style : BoxStyle
  title : String
  keyRows : List String
  otherRows : List String
  deriving DecidableEq, Repr

inductive Primitive (α : Type) where
  | box (box : Box α)
  | path (points : List (Point α)) (style : PathStyle)
  | text (point : Point α) (content : String) (anchor : TextAnchor) (style : TextStyle)
  | circle (center : Point α) (radius : α) (style : CircleStyle)
  | underline (a b : Point α)
  /-- A square given by its top left corner. -/
  | optionalMarker (corner : Point α) (side : α)
  deriving DecidableEq, Repr

/-- Primitives collected in groups. -/
inductive Sketch (α : Type) where
  | single (primitive : Primitive α)
  | group (parts : List (Sketch α))

mutual

/-- The primitives of a sketch in the order of collection. -/
def Sketch.primitives {α : Type} : Sketch α → List (Primitive α)
  | .single primitive => [primitive]
  | .group parts => Sketch.primitivesOf parts

def Sketch.primitivesOf {α : Type} : List (Sketch α) → List (Primitive α)
  | [] => []
  | part :: parts => part.primitives ++ Sketch.primitivesOf parts

end

end EntityDiagram
