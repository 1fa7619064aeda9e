import ClassDiagram.Layout.Config
import ClassDiagram.NameMap
/-! The grid layout: the names row by row, whatever relates them. -/

namespace ClassDiagram.Layout.Grid

variable {α : Type} [Add α] [Mul α] [Coordinate α]

def title : String × String := ("grid", "0.1.0")

def positions (c : Config α) (nodes : List String) : NameMap (Position α) :=
  let columns := max c.gridColumns 1
  NameMap.ofList <| nodes.eraseDups.zipIdx.map fun (name, i) =>
    (name, c.cell c.padding (i % columns) (i / columns))

end ClassDiagram.Layout.Grid
