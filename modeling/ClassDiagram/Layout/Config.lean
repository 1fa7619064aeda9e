/-!
Sizes of boxes and the room between them. Layouts are computed in any number type with the four
operations below; which one it is decides whether the arithmetic is exact.
-/

namespace ClassDiagram.Layout

/--
What a number type needs besides arithmetic and order: whole numbers, and rounding down to one.
-/
class Coordinate (α : Type) where
  ofNat : Nat → α
  floor : α → α

instance : Coordinate Float := ⟨Float.ofNat, Float.floor⟩

instance : Coordinate Rat := ⟨fun n => n, fun x => (x.floor : Rat)⟩

structure Position (α : Type) where
  x : α
  y : α
  deriving DecidableEq, Repr

structure Config (α : Type) where
  nodeWidth : α
  nodeHeight : α
  horizontalSpacing : α
  verticalSpacing : α
  padding : α
  gridColumns : Nat
  snapSize : α
  deriving DecidableEq, Repr

namespace Config

variable {α : Type}

def standard [Coordinate α] : Config α :=
  { nodeWidth := Coordinate.ofNat 250
    nodeHeight := Coordinate.ofNat 100
    horizontalSpacing := Coordinate.ofNat 100
    verticalSpacing := Coordinate.ofNat 100
    padding := Coordinate.ofNat 50
    gridColumns := 5
    snapSize := Coordinate.ofNat 25 }

def columnStep [Add α] (c : Config α) : α := c.nodeWidth + c.horizontalSpacing

def rowStep [Add α] (c : Config α) : α := c.nodeHeight + c.verticalSpacing

/-- The corner of a cell in a block that starts at the padding and at a height. -/
def cell [Add α] [Mul α] [Coordinate α] (c : Config α) (height : α) (column row : Nat) :
    Position α :=
  { x := c.padding + Coordinate.ofNat column * c.columnStep
    y := height + Coordinate.ofNat row * c.rowStep }

end Config

end ClassDiagram.Layout
