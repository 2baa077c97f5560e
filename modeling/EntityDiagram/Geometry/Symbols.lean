import EntityDiagram.Geometry.Failure
import EntityDiagram.Primitive

/-! Symbols at the ends of a connector: a dot with a letter for the cardinality at the target, a
square for an optional foreign key at the source. -/
namespace EntityDiagram

variable {α : Type} [Scalar α]

/-- The letter for a cardinality, where there is one. -/
def Cardinality.glyph? : Cardinality → Option String
  | ⟨false, true⟩ => some "P"
  | ⟨true, false⟩ => some "Z"
  | ⟨false, false⟩ | ⟨true, true⟩ => none

def dotRadius : α := 4

def optionalMarkerSide : α := 8

/-- One, with the sign of a number, as a measurement. -/
def unitWithSign (a : α) : α := Scalar.approx (if Scalar.isNegative a then -1 else 1)

/-- The difference of two ends along the axis of the greater difference. -/
def alongDifference (target source : Point α) : α :=
  let dx := target.x - source.x
  let dy := target.y - source.y
  if Scalar.abs dy < Scalar.abs dx then dx else dy

/-- The letter stands beside the target, back from the end of the connector along the axis of the
greater difference and a fixed distance across it. -/
def glyphPoint (target source : Point α) : Point α :=
  let dx := target.x - source.x
  let dy := target.y - source.y
  if Scalar.abs dy < Scalar.abs dx then ⟨target.x + 8 * -unitWithSign dx, target.y + 16⟩
  else ⟨target.x + 16, target.y + 8 * -unitWithSign dy⟩

def cardinalitySymbols (target source : Point α) (c : Cardinality) : List (Primitive α) :=
  if c.optional || c.many then
    .circle target dotRadius .cardinalityDot ::
      c.glyph?.toList.map fun glyph =>
        .text (glyphPoint target source) glyph .start .cardinality
  else []

/-- The symbols of a relationship, whose ends must differ. The sign of the greater difference is
that of a double, whether or not a letter is drawn. -/
def relationshipSymbols (target source : Point α) (c : Cardinality) (identifying : Bool)
    (subject : Option String) : Except (Failure α) (List (Primitive α)) :=
  if target.x - source.x == 0 && target.y - source.y == 0 then
    .error (.geometry .coincidentEndpoints subject [target.x, target.y])
  else if !Scalar.fits (alongDifference target source) then .error (.arithmetic .tooLarge)
  else
    .ok <| cardinalitySymbols target source c ++
      if c.optional && !identifying then [.optionalMarker source optionalMarkerSide] else []

theorem relationshipSymbols_eq_ok_iff {target source : Point α} {c : Cardinality}
    {identifying : Bool} {subject : Option String} {symbols : List (Primitive α)} :
    relationshipSymbols target source c identifying subject = .ok symbols ↔
      (target.x - source.x == 0 && target.y - source.y == 0) = false ∧
      Scalar.fits (alongDifference target source) = true ∧
      symbols = cardinalitySymbols target source c ++
        if c.optional && !identifying then [.optionalMarker source optionalMarkerSide] else [] := by
  unfold relationshipSymbols
  cases hshared : target.x - source.x == 0 && target.y - source.y == 0 with
  | true => simp
  | false =>
    cases hfits : Scalar.fits (alongDifference target source) with
    | false => simp
    | true => simpa using eq_comm

end EntityDiagram
