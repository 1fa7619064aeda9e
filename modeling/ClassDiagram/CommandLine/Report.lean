import ClassDiagram.Json.Printer
import ClassDiagram.Layout.Cluster
import ClassDiagram.Layout.Codec
import ClassDiagram.Layout.Grid
import ClassDiagram.Layout.Snap
import ClassDiagram.Model.Codec
import ClassDiagram.Schema.Codec
import ClassDiagram.Schema.Conversion
/-! The texts that the commands write. -/

namespace ClassDiagram.CommandLine
open Layout

def jsonText (compact : Bool) (v : Json) : String := if compact then v.compactText else v.prettyText

section

variable {α : Type} [Add α] [Mul α] [Div α] [LE α] [DecidableLE α] [Coordinate α]

def positions (c : Config α) (m : Model) (grid snap : Bool) : NameMap (Position α) :=
  let placed := if grid then Grid.positions c m.nodes else Cluster.positions c m.nodes m.relations
  if snap then snapAll placed c.snapSize else placed

end

def schemaText (h : Heuristics) (m : Model) (className : Option String) (compact : Bool) :
    Except SchemaError String :=
  (h.generate m className).map fun output => jsonText compact output.toJson

end ClassDiagram.CommandLine
