import ClassDiagram.Layout.Config
import ClassDiagram.NameMap
/-!
The canvas of a drawing: the room up to the far sides of its boxes, and the padding behind them.
-/

namespace ClassDiagram.Layout

structure Canvas (α : Type) where
  width : α
  height : α
  deriving DecidableEq, Repr

variable {α : Type} [Add α] [LT α] [DecidableLT α] [Coordinate α]

/-- The greatest of some values and zero. A value that cannot be compared does not count. -/
def farthest (values : List α) : α :=
  values.foldl (fun m v => if m < v then v else m) (Coordinate.ofNat 0)

def canvas (positions : NameMap (Position α)) (c : Config α) : Canvas α :=
  { width := farthest (positions.values.map fun p => p.x + c.nodeWidth) + c.padding
    height := farthest (positions.values.map fun p => p.y + c.nodeHeight) + c.padding }

end ClassDiagram.Layout
