import ClassDiagram.Json.Number
import ClassDiagram.Json.Record
import ClassDiagram.Layout.Canvas
import ClassDiagram.Layout.Config
/-! Layouts of doubles as JSON values, and positions as texts. -/

namespace ClassDiagram.Layout
open Json

def Config.toJson (c : Config Float) : Json :=
  record [("nodeWidth", ofFloat c.nodeWidth), ("nodeHeight", ofFloat c.nodeHeight),
    ("horizontalSpacing", ofFloat c.horizontalSpacing),
    ("verticalSpacing", ofFloat c.verticalSpacing),
    ("padding", ofFloat c.padding), ("gridColumns", ofNat c.gridColumns),
    ("snapSize", ofFloat c.snapSize)]

/-- A configuration, in which fields that are missing have their standard values. -/
def Config.ofJson? (v : Json) : Option (Config Float) := do
  let f ← v.fields? ["nodeWidth", "nodeHeight", "horizontalSpacing", "verticalSpacing", "padding",
    "gridColumns", "snapSize"]
  let c : Config Float := Config.standard
  return {
    nodeWidth := ← f.orElse "nodeWidth" float? c.nodeWidth
    nodeHeight := ← f.orElse "nodeHeight" float? c.nodeHeight
    horizontalSpacing := ← f.orElse "horizontalSpacing" float? c.horizontalSpacing
    verticalSpacing := ← f.orElse "verticalSpacing" float? c.verticalSpacing
    padding := ← f.orElse "padding" float? c.padding
    gridColumns := ← f.orElse "gridColumns" word? c.gridColumns
    snapSize := ← f.orElse "snapSize" float? c.snapSize }

def Position.toJson (p : Position Float) : Json := record [("x", ofFloat p.x), ("y", ofFloat p.y)]

def Position.ofJson? (v : Json) : Option (Position Float) := do
  let f ← v.fields? ["x", "y"]
  return { x := ← f.required "x" float?, y := ← f.required "y" float? }

def positionsToJson (positions : NameMap (Position Float)) : Json := ofMap Position.toJson positions

def positionsOfJson? : Json → Option (NameMap (Position Float)) := map? Position.ofJson?

def Canvas.toJson (c : Canvas Float) : Json :=
  record [("width", ofFloat c.width), ("height", ofFloat c.height)]

/-- A coordinate is written without exponent, and a whole one without a point. -/
def coordinateStyle : Decimal.Style := ⟨.up, none, false⟩

def coordinateText (x : Float) : String :=
  match Decimal.ofFloat? coordinateStyle x with
  | some d => String.ofList d.text
  | none => if x.isNaN then "NaN" else if x < 0 then "-inf" else "inf"

def Position.text (p : Position Float) : String :=
  "(" ++ coordinateText p.x ++ ", " ++ coordinateText p.y ++ ")"

end ClassDiagram.Layout
