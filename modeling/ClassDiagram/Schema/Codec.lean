import ClassDiagram.Json.Number
import ClassDiagram.Json.Reader
import ClassDiagram.Json.Record
import ClassDiagram.Schema.Basic
import ClassDiagram.Schema.Error
import ClassDiagram.Schema.Heuristics
/-! Schemas and heuristics as JSON values. -/

namespace ClassDiagram
open Json

def Permissions.toJson (p : Permissions) : Json :=
  record [("create", bool p.create), ("read", bool p.read), ("update", bool p.update),
    ("delete", bool p.delete)]

def Permissions.ofJson? (v : Json) : Option Permissions := do
  let f ← v.fields? ["create", "read", "update", "delete"]
  return {
    create := ← f.required "create" bool?
    read := ← f.required "read" bool?
    update := ← f.required "update" bool?
    delete := ← f.required "delete" bool? }

def Cardinality.toJson (c : Cardinality) : Json := ofText c.name

def Cardinality.ofJson? : Json → Option Cardinality :=
  choice? (Cardinality.all.map fun c => (c.name, c))

def DeletePolicy.toJson (p : DeletePolicy) : Json := ofText p.name

def DeletePolicy.ofJson? : Json → Option DeletePolicy :=
  choice? (DeletePolicy.all.map fun p => (p.name, p))

def RelationSchema.toJson (r : RelationSchema) : Json :=
  record [("kind", r.kind.toJson), ("onDelete", r.onDelete.toJson),
    ("embedded", r.embedded.map bool)]

def RelationSchema.ofJson? (v : Json) : Option RelationSchema := do
  let f ← v.fields? ["kind", "onDelete", "embedded"]
  return {
    kind := ← f.required "kind" Cardinality.ofJson?
    onDelete := ← f.required "onDelete" DeletePolicy.ofJson?
    embedded := ← f.optional "embedded" bool? }

def EditSchema.toJson (e : EditSchema) : Json := record [("optional", bool e.optional)]

def EditSchema.ofJson? (v : Json) : Option EditSchema := do
  let f ← v.fields? ["optional"]
  return { optional := ← f.required "optional" bool? }

def DetailView.toJson (d : DetailView) : Json :=
  record [("group", ofText d.group), ("component", ofText d.component)]

def DetailView.ofJson? (v : Json) : Option DetailView := do
  let f ← v.fields? ["group", "component"]
  return {
    group := ← f.required "group" text?
    component := ← f.required "component" text? }

def ViewSchema.toJson (w : ViewSchema) : Json :=
  record [("list", w.list.map bool), ("detail", w.detail.toJson)]

def ViewSchema.ofJson? (v : Json) : Option ViewSchema := do
  let f ← v.fields? ["list", "detail"]
  return {
    list := ← f.optional "list" bool?
    detail := ← f.required "detail" DetailView.ofJson? }

def AttributeSchema.toJson (a : AttributeSchema) : Json :=
  record [("name", ofText a.name), ("type", ofText a.type),
    ("enum", a.enumValues.map (Json.list ofText)), ("relation", a.relation.map (·.toJson)),
    ("edit", a.edit.map (·.toJson)), ("view", a.view.toJson),
    ("search", a.search.map bool), ("externalKey", a.externalKey.map bool)]

def AttributeSchema.ofJson? (v : Json) : Option AttributeSchema := do
  let f ← v.fields? ["name", "type", "enum", "relation", "edit", "view", "search", "externalKey"]
  return {
    name := ← f.required "name" text?
    type := ← f.required "type" text?
    enumValues := ← f.optional "enum" (list? text?)
    relation := ← f.optional "relation" RelationSchema.ofJson?
    edit := ← f.optional "edit" EditSchema.ofJson?
    view := ← f.required "view" ViewSchema.ofJson?
    search := ← f.optional "search" bool?
    externalKey := ← f.optional "externalKey" bool? }

def ClassSchema.toJson (s : ClassSchema) : Json :=
  record [("name", ofText s.name), ("icon", ofText s.icon), ("title", ofText s.title),
    ("attributes", Json.list AttributeSchema.toJson s.attributes),
    ("permissions", s.permissions.toJson),
    ("derivesFrom", s.derivesFrom.map ofText)]

def ClassSchema.ofJson? (v : Json) : Option ClassSchema := do
  let f ← v.fields? ["name", "icon", "title", "attributes", "permissions", "derivesFrom"]
  return {
    name := ← f.required "name" text?
    icon := ← f.required "icon" text?
    title := ← f.required "title" text?
    attributes := ← f.required "attributes" (list? AttributeSchema.ofJson?)
    permissions := ← f.orElse "permissions" Permissions.ofJson? Permissions.all
    derivesFrom := ← f.optional "derivesFrom" text? }

def SchemaOutput.toJson : SchemaOutput → Json
  | .one schema => schema.toJson
  | .all schemas => Json.list ClassSchema.toJson schemas

/-- One schema if the value can be read so, else a list of schemas. -/
def SchemaOutput.ofJson? (v : Json) : Option SchemaOutput :=
  if v.isPlain then
    match ClassSchema.ofJson? v with
    | some schema => some (.one schema)
    | none => (list? ClassSchema.ofJson? v).map .all
  else none

def GroupRule.toJson (r : GroupRule) : Json :=
  record [("contains", ofText r.contains), ("group", ofText r.group)]

def GroupRule.ofJson? (v : Json) : Option GroupRule := do
  let f ← v.fields? ["contains", "group"]
  return {
    contains := ← f.required "contains" text?
    group := ← f.required "group" text? }

namespace Heuristics

def toJson (h : Heuristics) : Json :=
  record [("icon", ofText h.icon), ("fallbackTitle", ofText h.fallbackTitle),
    ("titleCodeContains", Json.list ofText h.titleCodeContains),
    ("titleNameEquals", Json.list ofText h.titleNameEquals),
    ("listNames", Json.list ofText h.listNames),
    ("searchNames", Json.list ofText h.searchNames),
    ("externalKeyNames", Json.list ofText h.externalKeyNames),
    ("groupRules", Json.list GroupRule.toJson h.groupRules),
    ("defaultGroup", ofText h.defaultGroup),
    ("primitives", ofMap ofText h.primitives), ("defaultPrimitive", ofText h.defaultPrimitive),
    ("components", ofMap ofText h.components), ("enumComponent", ofText h.enumComponent),
    ("relationComponent", ofText h.relationComponent),
    ("defaultComponent", ofText h.defaultComponent)]

def ofJson? (v : Json) : Option Heuristics := do
  let f ← v.fields? ["icon", "fallbackTitle", "titleCodeContains", "titleNameEquals", "listNames",
    "searchNames", "externalKeyNames", "groupRules", "defaultGroup", "primitives",
    "defaultPrimitive", "components", "enumComponent", "relationComponent", "defaultComponent"]
  let h := Heuristics.standard
  return {
    icon := ← f.orElse "icon" text? h.icon
    fallbackTitle := ← f.orElse "fallbackTitle" text? h.fallbackTitle
    titleCodeContains := ← f.orElse "titleCodeContains" (list? text?) h.titleCodeContains
    titleNameEquals := ← f.orElse "titleNameEquals" (list? text?) h.titleNameEquals
    listNames := ← f.orElse "listNames" (list? text?) h.listNames
    searchNames := ← f.orElse "searchNames" (list? text?) h.searchNames
    externalKeyNames := ← f.orElse "externalKeyNames" (list? text?) h.externalKeyNames
    groupRules := ← f.orElse "groupRules" (list? GroupRule.ofJson?) h.groupRules
    defaultGroup := ← f.orElse "defaultGroup" text? h.defaultGroup
    primitives := ← f.orElse "primitives" (map? text?) h.primitives
    defaultPrimitive := ← f.orElse "defaultPrimitive" text? h.defaultPrimitive
    components := ← f.orElse "components" (map? text?) h.components
    enumComponent := ← f.orElse "enumComponent" text? h.enumComponent
    relationComponent := ← f.orElse "relationComponent" text? h.relationComponent
    defaultComponent := ← f.orElse "defaultComponent" text? h.defaultComponent }

/-- Heuristics in a JSON text. Types are found whatever the case in which the text names them. -/
def ofString? (text : String) : Except SchemaError Heuristics :=
  match Json.ofString? text with
  | none => .error (.invalidHeuristics "the text is not JSON")
  | some v =>
    match ofJson? v with
    | none => .error (.invalidHeuristics "a field does not have the expected form")
    | some h => .ok h.lowerPrimitives

end Heuristics

end ClassDiagram
