import ClassDiagram.Schema.Basic
import ClassDiagram.Schema.Error
import ClassDiagram.Schema.Heuristics
import ClassDiagram.Schema.Index
import ClassDiagram.Schema.TypeSpec
/-!
From classes to schemas. The fields of a class are those of its ancestors, farthest first, then its
own; at each level the interfaces that it implements come before its attributes.
-/

namespace ClassDiagram

namespace Model

def composes (m : Model) (a b : String) : Bool :=
  m.relations.any fun r => r.kind = .composition && r.joins a b

def relationSchema (m : Model) (owner target : String) (many : Bool) : RelationSchema :=
  if m.composes owner target then (RelationSchema.reference many).embed
  else RelationSchema.reference many

end Model

/-- A flag that is missing if it is not set. -/
def flag (b : Bool) : Option Bool := if b then some true else none

def titlePart (a : Attribute) : String := "\x7b" ++ toCamel a.name ++ "\x7d"

/--
The title of a class, from the first of its attributes that is a code and the first that is a name.
-/
def Heuristics.title (h : Heuristics) (c : Class) : String :=
  match c.attributes.find? fun a => h.isTitleCode a.name with
  | none => h.fallbackTitle
  | some code =>
    match c.attributes.find? fun a => h.isTitleName a.name with
    | some name => titlePart code ++ " - " ++ titlePart name
    | none => titlePart code

structure Converter where
  model : Model
  heuristics : Heuristics
  index : Index
  deriving DecidableEq, Repr

namespace Converter

def ofModel (h : Heuristics) (m : Model) : Converter := ⟨m, h, Index.ofModel m⟩

/-- A field of a class as its attribute makes it. An enumeration goes before a class of its name. -/
def attributeSchema (k : Converter) (owner : String) (a : Attribute) : AttributeSchema :=
  let h := k.heuristics
  let spec := TypeSpec.parse a.type
  let name := toCamel a.name
  let (type, enumValues, relation) :=
    match k.index.enums.find? spec.base with
    | some e => ("enum", some e.values, none)
    | none =>
      if (k.index.classes.find? spec.base).isSome then
        (spec.base, none, some (k.model.relationSchema owner spec.base spec.many))
      else ((h.primitive? spec.base).getD h.defaultPrimitive, none, none)
  { name
    type
    enumValues
    relation
    edit := if spec.optional then some ⟨true⟩ else none
    view :=
      { list := flag (h.isList name)
        detail := ⟨h.groupFor name, h.componentFor type enumValues.isSome relation.isSome⟩ }
    search := flag (h.isSearchable name)
    externalKey := flag (h.isExternalKey name) }

/-- The fields of a class from the interfaces that it implements, in the order of the relations. -/
def interfaceFields (k : Converter) (c : Class) : List AttributeSchema :=
  (k.model.relations.filter fun r => r.kind = .implementation && r.target = c.name).flatMap fun r =>
    match k.index.interfaces.find? r.source with
    | some i => i.attributes.map (k.attributeSchema c.name)
    | none => []

def levelFields (k : Converter) (c : Class) : List AttributeSchema :=
  k.interfaceFields c ++ c.attributes.map (k.attributeSchema c.name)

/--
The fields of a class and its ancestors. The chain holds the names of the classes that led here; a
class that stands on it already closes a cycle.
-/
def flatten (k : Converter) (chain : List String) (c : Class) :
    Except SchemaError (List AttributeSchema) :=
  if _ : c.name ∈ chain then .error (.cyclicInheritance c.name (chain ++ [c.name]))
  else
    match _ : k.index.parentClass? c.name with
    | none => .ok (k.levelFields c)
    | some p =>
      match flatten k (chain ++ [c.name]) p with
      | .ok inherited => .ok (inherited ++ k.levelFields c)
      | .error e => .error e
termination_by k.index.unseen chain c
decreasing_by exact Index.unseen_lt ‹_› ‹_›

def convertClass (k : Converter) (c : Class) : Except SchemaError ClassSchema :=
  match k.flatten [] c with
  | .error e => .error e
  | .ok attributes =>
    .ok { name := c.name
          icon := k.heuristics.icon
          title := k.heuristics.title c
          attributes
          permissions := Permissions.all
          derivesFrom := k.index.parents.find? c.name }

end Converter

namespace Heuristics

/-- The schemas of all classes, or what is wrong with the first that has none. -/
def convert (h : Heuristics) (m : Model) : Except SchemaError (List ClassSchema) :=
  m.classes.mapM (Converter.ofModel h m).convertClass

def convertOne (h : Heuristics) (m : Model) (name : String) : Except SchemaError ClassSchema :=
  match m.class? name with
  | none => .error (.classNotFound name)
  | some c => (Converter.ofModel h m).convertClass c

def generate (h : Heuristics) (m : Model) : Option String → Except SchemaError SchemaOutput
  | some name => (h.convertOne m name).map .one
  | none => (h.convert m).map .all

end Heuristics

end ClassDiagram
