/-! Relations between entities: their kinds, and the edges themselves. -/

namespace ClassDiagram

inductive RelationKind where
  | inheritance
  | implementation
  | composition
  | aggregation
  | association
  | dependency
  | nested
  deriving DecidableEq, Repr, Inhabited

namespace RelationKind

/-- Every kind, from the tightest to the loosest. -/
def all : List RelationKind :=
  [inheritance, implementation, composition, aggregation, association, dependency, nested]

def name : RelationKind → String
  | inheritance => "inheritance"
  | implementation => "implementation"
  | composition => "composition"
  | aggregation => "aggregation"
  | association => "association"
  | dependency => "dependency"
  | nested => "nested"

def symbol : RelationKind → String
  | inheritance => "◁───"
  | implementation => "◁···"
  | composition => "◆───"
  | aggregation => "◇───"
  | association => "───"
  | dependency => "···>"
  | nested => "⊕───"

def isDashed : RelationKind → Bool
  | implementation | dependency => true
  | _ => false

end RelationKind

/--
An edge between two names, which keep the order in which they were written. Neither has to name an
entity of the model.
-/
structure Relation where
  source : String
  target : String
  kind : RelationKind
  deriving DecidableEq, Repr, Inhabited

namespace Relation

def touches (r : Relation) (name : String) : Bool := r.source = name || r.target = name

def joins (r : Relation) (a b : String) : Bool :=
  (r.source = a && r.target = b) || (r.source = b && r.target = a)

def line (r : Relation) : String :=
  r.source ++ " " ++ r.kind.symbol ++ " " ++ r.target ++ " (" ++ r.kind.name ++ ")"

end Relation

end ClassDiagram
