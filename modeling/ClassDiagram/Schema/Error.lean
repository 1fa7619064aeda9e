/-! What keeps a schema from being generated. -/

namespace ClassDiagram

inductive SchemaError where
  | classNotFound (name : String)
  /-- The walk through the parents comes back to a class; the walk ends with its second place. -/
  | cyclicInheritance (name : String) (walk : List String)
  | invalidHeuristics (reason : String)
  deriving DecidableEq, Repr

def SchemaError.message : SchemaError → String
  | classNotFound name => "Class not found: " ++ name
  | cyclicInheritance name walk =>
    "Cyclic inheritance at " ++ name ++ ": " ++ " -> ".intercalate walk
  | invalidHeuristics reason => "Invalid schema heuristics: " ++ reason

end ClassDiagram
