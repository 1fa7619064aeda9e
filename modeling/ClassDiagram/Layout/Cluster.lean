import ClassDiagram.Layout.Components
import ClassDiagram.Layout.Config
import ClassDiagram.NameMap
/-!
The cluster layout. Each connected component is packed into a block that is as square as can be, and
the blocks are stacked from top to bottom, the largest first.
-/

namespace ClassDiagram.Layout

def squareColumnsFrom (n columns : Nat) : Nat :=
  if columns * columns < n then squareColumnsFrom n (columns + 1) else columns
termination_by n - columns
decreasing_by
  have h : columns ≤ columns * columns := Nat.le_mul_self columns
  omega

/-- The columns of a block of `n` names: the least positive number whose square is at least `n`. -/
def squareColumns (n : Nat) : Nat := squareColumnsFrom n 1

def rows (n columns : Nat) : Nat := (n + columns - 1) / columns

/-- The components by size, the largest first. Components of one size keep their order. -/
def bySize (components : List (List String)) : List (List String) :=
  components.mergeSort fun a b => b.length ≤ a.length

namespace Cluster

variable {α : Type} [Add α] [Mul α] [Coordinate α]

def block (c : Config α) (height : α) (names : List String) : List (String × Position α) :=
  let columns := squareColumns names.length
  names.zipIdx.map fun (name, i) => (name, c.cell height (i % columns) (i / columns))

def below (c : Config α) (height : α) (size : Nat) : α :=
  height + (Coordinate.ofNat (rows size (squareColumns size)) * c.rowStep +
    Coordinate.ofNat 2 * c.verticalSpacing)

def stack (c : Config α) : (height : α) → List (List String) → List (String × Position α)
  | _, [] => []
  | height, names :: more => block c height names ++ stack c (below c height names.length) more

def title : String × String := ("cluster", "0.1.0")

def positions (c : Config α) (nodes : List String) (relations : List Relation) :
    NameMap (Position α) :=
  NameMap.ofList (stack c c.padding (bySize (components nodes relations)))

end Cluster

end ClassDiagram.Layout
