import ClassDiagram.Relation.Basic
/-!
The model of a class diagram: entities, relations and package names, all in the order in which they
were declared. Adding keeps relations and package names free of repeats.
-/

namespace ClassDiagram

structure Attribute where
  name : String
  type : String
  defaultValue : Option String
  deriving DecidableEq, Repr, Inhabited

structure Method where
  name : String
  returnType : String
  deriving DecidableEq, Repr, Inhabited

structure Class where
  name : String
  displayName : String
  package : Option String
  attributes : List Attribute
  methods : List Method
  deriving DecidableEq, Repr, Inhabited

/-- An interface. Its methods are not part of the model. -/
structure Interface where
  name : String
  package : Option String
  attributes : List Attribute
  deriving DecidableEq, Repr, Inhabited

/-- An enumeration. Its values may repeat. -/
structure Enumeration where
  name : String
  package : Option String
  values : List String
  deriving DecidableEq, Repr, Inhabited

structure Model where
  classes : List Class
  interfaces : List Interface
  enums : List Enumeration
  relations : List Relation
  packages : List String
  deriving DecidableEq, Repr, Inhabited

structure Census where
  met : List String
  /-- Every name once, in the order in which they were met again. -/
  again : List String
  deriving DecidableEq, Repr, Inhabited

namespace Census

def empty : Census := ⟨[], []⟩

/-- One more name. It is reported if it was met before and has not been reported. -/
def meet (c : Census) (name : String) : Census where
  met := c.met.insert name
  again := if name ∈ c.met ∧ name ∉ c.again then c.again ++ [name] else c.again

def ofNames (names : List String) : Census := names.foldl meet empty

end Census

namespace Model

def empty : Model := ⟨[], [], [], [], []⟩

def addClass (m : Model) (c : Class) : Model := { m with classes := m.classes ++ [c] }

def addInterface (m : Model) (i : Interface) : Model := { m with interfaces := m.interfaces ++ [i] }

def addEnum (m : Model) (e : Enumeration) : Model := { m with enums := m.enums ++ [e] }

def addPackage (m : Model) (name : String) : Model :=
  if name ∈ m.packages then m else { m with packages := m.packages ++ [name] }

/-- Records a relation unless it is there, and tells whether it was recorded. -/
def addRelation (m : Model) (r : Relation) : Model × Bool :=
  if r ∈ m.relations then (m, false) else ({ m with relations := m.relations ++ [r] }, true)

def addAttribute (m : Model) (index : Nat) (a : Attribute) : Model :=
  { m with classes := m.classes.modify index fun c => { c with attributes := c.attributes ++ [a] } }

def addMethod (m : Model) (index : Nat) (f : Method) : Model :=
  { m with classes := m.classes.modify index fun c => { c with methods := c.methods ++ [f] } }

def addInterfaceAttribute (m : Model) (index : Nat) (a : Attribute) : Model :=
  { m with
    interfaces := m.interfaces.modify index fun i => { i with attributes := i.attributes ++ [a] } }

def addValue (m : Model) (index : Nat) (value : String) : Model :=
  { m with enums := m.enums.modify index fun e => { e with values := e.values ++ [value] } }

def class? (m : Model) (name : String) : Option Class := m.classes.find? (·.name = name)

/-- The names that are placed on a canvas: those of the classes, then those of the interfaces. -/
def nodes (m : Model) : List String := m.classes.map (·.name) ++ m.interfaces.map (·.name)

def relationsOf (m : Model) (name : String) : List Relation := m.relations.filter (·.touches name)

def duplicateClassNames (m : Model) : List String :=
  (Census.ofNames (m.classes.map (·.name))).again

end Model

end ClassDiagram
