import EntityDiagram.Render
import EntityDiagram.Proofs.Canvas.Containment
import EntityDiagram.Proofs.Drawing.Connectors
import EntityDiagram.Proofs.Drawing.Locality
import EntityDiagram.Proofs.Drawing.Plans
import EntityDiagram.Proofs.Geometry.CenterLine
import EntityDiagram.Proofs.Geometry.ConnectionPoints
import EntityDiagram.Proofs.Geometry.Junctions
import EntityDiagram.Proofs.Geometry.Routes
import EntityDiagram.Proofs.Layout.GridCells
import EntityDiagram.Proofs.Layout.LayerOrder
import EntityDiagram.Proofs.Schema.CycleSearch
import EntityDiagram.Proofs.Schema.WellFormed
import EntityDiagram.Proofs.Session.Dragging
import EntityDiagram.Proofs.Session.GridDrawing
import EntityDiagram.Proofs.Session.Zoom
import EntityDiagram.Proofs.Source.Concatenation
import EntityDiagram.Proofs.Source.DeclaredAttributes
import EntityDiagram.Proofs.Source.EntityLayout
import EntityDiagram.Proofs.Source.GeneralizationLayout
import EntityDiagram.Proofs.Source.RoundTrip
import EntityDiagram.Proofs.Source.SignificantLines
import EntityDiagram.Proofs.Svg.BoxRows
import EntityDiagram.Proofs.Svg.Fonts
import EntityDiagram.Proofs.Svg.Template
