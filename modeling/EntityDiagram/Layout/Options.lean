/-! What a caller may choose about a diagram. A choice that is left open has a default; for sizes
and gaps other than the padding, zero leaves it open too. -/
namespace EntityDiagram

inductive Arrangement where
  | grid
  | layered
  deriving DecidableEq, Repr

/-- Every name but one means the grid. -/
def Arrangement.ofName (name : String) : Arrangement := if name = "layered" then layered else grid

structure Options where
  padding : Option Int
  cellWidth : Option Int
  cellHeight : Option Int
  arrangement : Arrangement
  nodeSpacing : Option Int
  layerSpacing : Option Int
  font : Option String
  transparent : Bool
  deriving DecidableEq, Repr

namespace Options

def default : Options := ⟨none, none, none, .grid, none, none, none, false⟩

/-- A choice, or the default when none or zero is chosen. -/
def orDefault (choice : Option Int) (default : Int) : Int :=
  match choice with
  | none => default
  | some n => if n = 0 then default else n

def paddingSize (o : Options) : Int := o.padding.getD 150

def cellWidthSize (o : Options) : Int := orDefault o.cellWidth 200

def cellHeightSize (o : Options) : Int := orDefault o.cellHeight 200

def nodeGap (o : Options) : Int := orDefault o.nodeSpacing 60

def layerGap (o : Options) : Int := orDefault o.layerSpacing 90

/-- The name of the font for titles and labels. -/
def fontName (o : Options) : String :=
  match o.font with
  | none | some "" => "Inter"
  | some font => font

end Options

end EntityDiagram
