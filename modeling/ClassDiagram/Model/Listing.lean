import ClassDiagram.Model.Basic
/-! Texts about a model: how much it holds, and its relations one a line. -/

namespace ClassDiagram

namespace Model

def summary (m : Model) : String :=
  toString m.classes.length ++ " classes · " ++ toString m.enums.length ++ " enums · " ++
    toString m.interfaces.length ++ " interfaces · " ++ toString m.relations.length ++ " relations"

def overview (m : Model) : String :=
  if m.packages = [] then m.summary
  else m.summary ++ "\npackages: " ++ ", ".intercalate m.packages

def relationListing (m : Model) (node : Option String) : String :=
  let shown := match node with
    | some name => m.relationsOf name
    | none => m.relations
  "\n".intercalate (shown.map (·.line))

end Model

end ClassDiagram
