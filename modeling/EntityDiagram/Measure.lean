import EntityDiagram.Diagram

/-! The size a box needs: a header with the title, a row for each attribute, and a gap between key
rows and the others. Text is measured by its count of characters. -/
namespace EntityDiagram

namespace Measure

variable {α : Type} [Scalar α]

def sidePadding : α := 12

def headerHeight : α := 32

def rowHeight : α := 22

def separatorHeight : α := 6

def minimalWidth : α := 140

def titleSize : α := 13

def titleWeight : Int := 700

def rowSize : α := 11

/-- The width of proportional text. A bold character takes 58 hundredths of its size, any other 52
hundredths; weights are bold from 600 on. -/
def textWidth (text : String) (size : α) (weight : Int) : α :=
  Scalar.ofInt text.length * size * ((if 600 ≤ weight then 58 else 52) / 100)

/-- The width of monospaced text: every character takes six tenths of its size. -/
def monospaceWidth (text : String) (size : α) : α := Scalar.ofInt text.length * size * (6 / 10)

/-- The width of the widest row. -/
def widestRow (attributes : List Attribute) : α :=
  (attributes.map fun a => monospaceWidth a.row rowSize).foldl Scalar.larger 0

/-- The size of the box of an entity. A box without attributes keeps room for one row. -/
def entity (e : Entity) : Size α :=
  let padding : α := sidePadding * 2
  let rows := e.attributes.length
  let body : α := headerHeight + Scalar.ofInt (max rows 1) * rowHeight
  { width := Scalar.larger
      (Scalar.larger minimalWidth (textWidth e.name titleSize titleWeight + padding))
      (widestRow e.attributes + padding)
    height := if rows = 0 then body else body + separatorHeight }

end Measure

/-- Measures every entity. -/
def Diagram.measure {α : Type} [Scalar α] (d : Diagram α) : Diagram α :=
  { d with nodes := d.nodes.map fun n => { n with bounds := some (Measure.entity n.toEntity) } }

end EntityDiagram
