import ClassDiagram.Json.Record
import ClassDiagram.Model.Basic
/-! Models as JSON values. -/

namespace ClassDiagram
open Json

def RelationKind.toJson (k : RelationKind) : Json := ofText k.name

def RelationKind.ofJson? : Json → Option RelationKind :=
  choice? (RelationKind.all.map fun k => (k.name, k))

def Relation.toJson (r : Relation) : Json :=
  record [("from", ofText r.source), ("to", ofText r.target), ("type", r.kind.toJson)]

def Relation.ofJson? (v : Json) : Option Relation := do
  let f ← v.fields? ["from", "to", "type"]
  return {
    source := ← f.required "from" text?
    target := ← f.required "to" text?
    kind := ← f.required "type" RelationKind.ofJson? }

def Attribute.toJson (a : Attribute) : Json :=
  record [("name", ofText a.name), ("type", ofText a.type),
    ("defaultValue", a.defaultValue.map ofText)]

def Attribute.ofJson? (v : Json) : Option Attribute := do
  let f ← v.fields? ["name", "type", "defaultValue"]
  return {
    name := ← f.required "name" text?
    type := ← f.required "type" text?
    defaultValue := ← f.optional "defaultValue" text? }

def Method.toJson (f : Method) : Json :=
  record [("name", ofText f.name), ("returnType", ofText f.returnType)]

def Method.ofJson? (v : Json) : Option Method := do
  let f ← v.fields? ["name", "returnType"]
  return {
    name := ← f.required "name" text?
    returnType := ← f.required "returnType" text? }

def Class.toJson (c : Class) : Json :=
  record [("name", ofText c.name), ("displayName", ofText c.displayName),
    ("package", orNull ofText c.package), ("attributes", list Attribute.toJson c.attributes),
    ("methods", list Method.toJson c.methods)]

def Class.ofJson? (v : Json) : Option Class := do
  let f ← v.fields? ["name", "displayName", "package", "attributes", "methods"]
  return {
    name := ← f.required "name" text?
    displayName := ← f.required "displayName" text?
    package := ← f.nullable "package" text?
    attributes := ← f.required "attributes" (list? Attribute.ofJson?)
    methods := ← f.required "methods" (list? Method.ofJson?) }

def Interface.toJson (i : Interface) : Json :=
  record [("name", ofText i.name), ("package", orNull ofText i.package),
    ("attributes", list Attribute.toJson i.attributes)]

def Interface.ofJson? (v : Json) : Option Interface := do
  let f ← v.fields? ["name", "package", "attributes"]
  return {
    name := ← f.required "name" text?
    package := ← f.nullable "package" text?
    attributes := ← f.required "attributes" (list? Attribute.ofJson?) }

def Enumeration.toJson (e : Enumeration) : Json :=
  record [("name", ofText e.name), ("package", orNull ofText e.package),
    ("values", list ofText e.values)]

def Enumeration.ofJson? (v : Json) : Option Enumeration := do
  let f ← v.fields? ["name", "package", "values"]
  return {
    name := ← f.required "name" text?
    package := ← f.nullable "package" text?
    values := ← f.required "values" (list? text?) }

def Model.toJson (m : Model) : Json :=
  record [("classes", list Class.toJson m.classes),
    ("interfaces", list Interface.toJson m.interfaces),
    ("enums", list Enumeration.toJson m.enums), ("relations", list Relation.toJson m.relations),
    ("packages", list ofText m.packages)]

def Model.ofJson? (v : Json) : Option Model := do
  let f ← v.fields? ["classes", "interfaces", "enums", "relations", "packages"]
  return {
    classes := ← f.required "classes" (list? Class.ofJson?)
    interfaces := ← f.required "interfaces" (list? Interface.ofJson?)
    enums := ← f.required "enums" (list? Enumeration.ofJson?)
    relations := ← f.required "relations" (list? Relation.ofJson?)
    packages := ← f.required "packages" (list? text?) }

end ClassDiagram
