import ClassDiagram.Layout.Config
import ClassDiagram.NameMap
/-! Snapping: positions move to the nearest crossing of grid lines, halves to the right and down. -/

namespace ClassDiagram.Layout

variable {α : Type} [Add α] [Mul α] [Div α] [LE α] [DecidableLE α] [Coordinate α]

/-- The multiple of the grid that is nearest to a value; of two, the greater. -/
def snapValue (grid v : α) : α :=
  Coordinate.floor (v / grid + Coordinate.ofNat 1 / Coordinate.ofNat 2) * grid

/-- The position snapped to a grid. A grid that is not positive leaves it where it is. -/
def Position.snap (p : Position α) (grid : α) : Position α :=
  if grid ≤ Coordinate.ofNat 0 then p else ⟨snapValue grid p.x, snapValue grid p.y⟩

def snapAll (positions : NameMap (Position α)) (grid : α) : NameMap (Position α) :=
  positions.map (·.snap grid)

end ClassDiagram.Layout
