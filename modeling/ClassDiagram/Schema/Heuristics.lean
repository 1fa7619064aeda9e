import ClassDiagram.NameMap
import ClassDiagram.Text.Lower
import ClassDiagram.Text.Search
/-!
Tables that infer from the name of an attribute how its field is shown, and from the name of a type
how it is stored.
-/

namespace ClassDiagram
open Text

/-- Names in which a text stands belong to a group. -/
structure GroupRule where
  contains : String
  group : String
  deriving DecidableEq, Repr, Inhabited

structure Heuristics where
  icon : String
  fallbackTitle : String
  /-- Parts of names, in lower case, that make an attribute the code of a title. -/
  titleCodeContains : List String
  titleNameEquals : List String
  listNames : List String
  searchNames : List String
  externalKeyNames : List String
  /-- The first rule that applies decides. -/
  groupRules : List GroupRule
  defaultGroup : String
  primitives : NameMap String
  defaultPrimitive : String
  components : NameMap String
  enumComponent : String
  relationComponent : String
  defaultComponent : String
  deriving DecidableEq, Repr

namespace Heuristics

def standard : Heuristics :=
  { icon := "file"
    fallbackTitle := "\x7bid\x7d"
    titleCodeContains := ["codice"]
    titleNameEquals := ["nome", "name", "descrizione"]
    listNames := ["code", "codice", "nome", "name"]
    searchNames := ["nome", "name", "descrizione", "code", "codice"]
    externalKeyNames := ["code", "codice"]
    groupRules := [⟨"descrizione", "textinfo"⟩, ⟨"prezzo", "quantitativeinfo"⟩,
      ⟨"peso", "quantitativeinfo"⟩]
    defaultGroup := "general"
    primitives := NameMap.ofList [("string", "string"), ("int", "number"), ("integer", "number"),
      ("bool", "boolean"), ("boolean", "boolean"), ("date", "date"), ("json", "json")]
    defaultPrimitive := "string"
    components := NameMap.ofList [("string", "string-field"), ("number", "number-field"),
      ("boolean", "boolean-field"), ("date", "date-field"), ("json", "json-field")]
    enumComponent := "enum-field"
    relationComponent := "relation-field"
    defaultComponent := "string-field" }

/-- The heuristics with the names of types in lower case; of equal ones the last in order counts. -/
def lowerPrimitives (h : Heuristics) : Heuristics :=
  { h with
    primitives := NameMap.ofList (h.primitives.entries.map fun e =>
      (String.ofList (lower e.1.toList), e.2)) }

def isTitleCode (h : Heuristics) (name : String) : Bool :=
  h.titleCodeContains.any fun part => Text.contains part.toList (lower name.toList)

def isTitleName (h : Heuristics) (name : String) : Bool :=
  String.ofList (lower name.toList) ∈ h.titleNameEquals

def isList (h : Heuristics) (name : String) : Bool := name ∈ h.listNames

def isSearchable (h : Heuristics) (name : String) : Bool := name ∈ h.searchNames

def isExternalKey (h : Heuristics) (name : String) : Bool := name ∈ h.externalKeyNames

def groupFor (h : Heuristics) (name : String) : String :=
  match h.groupRules.find? fun rule => Text.contains rule.contains.toList name.toList with
  | some rule => rule.group
  | none => h.defaultGroup

def primitive? (h : Heuristics) (type : String) : Option String :=
  h.primitives.find? (String.ofList (lower type.toList))

def componentFor (h : Heuristics) (type : String) (isEnum isRelation : Bool) : String :=
  if isEnum then h.enumComponent
  else if isRelation then h.relationComponent
  else (h.components.find? type).getD h.defaultComponent

end Heuristics

def toCamel (name : String) : String :=
  match name.toList with
  | [] => ""
  | c :: cs => String.ofList (lowerChar c ++ cs)

end ClassDiagram
