import ClassDiagram.Model.Basic
import ClassDiagram.Text.Lower
import ClassDiagram.Text.Search
/-! Filters on the entities of a model, by package and by a part of the name. -/

namespace ClassDiagram

structure Filter where
  /-- Only entities of this package pass; without one all do. -/
  package : Option String
  /-- A part of the name, in upper or lower case; the empty text passes every name. -/
  search : String
  deriving DecidableEq, Repr, Inhabited

namespace Filter

def acceptsPackage (f : Filter) (package : Option String) : Bool :=
  match f.package with
  | some wanted => package = some wanted
  | none => true

def acceptsName (f : Filter) (name : String) : Bool :=
  f.search = "" || Text.contains (Text.lower f.search.toList) (Text.lower name.toList)

def accepts (f : Filter) (name : String) (package : Option String) : Bool :=
  f.acceptsPackage package && f.acceptsName name

end Filter

/-- The model with the accepted entities only. Relations and packages stay. -/
def Model.filter (m : Model) (f : Filter) : Model :=
  { m with
    classes := m.classes.filter fun c => f.accepts c.name c.package
    interfaces := m.interfaces.filter fun i => f.accepts i.name i.package
    enums := m.enums.filter fun e => f.accepts e.name e.package }

end ClassDiagram
