/-!
Schemas of entities: the fields of a class with the way each is stored, edited and shown. A flag
that is not set is missing, which is not the same as one that is `false`.
-/

namespace ClassDiagram

structure Permissions where
  create : Bool
  read : Bool
  update : Bool
  delete : Bool
  deriving DecidableEq, Repr, Inhabited

def Permissions.all : Permissions := ⟨true, true, true, true⟩

inductive Cardinality where
  | oneToMany
  | manyToOne
  deriving DecidableEq, Repr, Inhabited

namespace Cardinality

def all : List Cardinality := [oneToMany, manyToOne]

def name : Cardinality → String
  | oneToMany => "one-to-many"
  | manyToOne => "many-to-one"

end Cardinality

/-- What becomes of the rows that refer to a deleted one. -/
inductive DeletePolicy where
  | restrict
  | cascade
  deriving DecidableEq, Repr, Inhabited

namespace DeletePolicy

def all : List DeletePolicy := [restrict, cascade]

def name : DeletePolicy → String
  | restrict => "RESTRICT"
  | cascade => "CASCADE"

end DeletePolicy

structure RelationSchema where
  kind : Cardinality
  onDelete : DeletePolicy
  embedded : Option Bool
  deriving DecidableEq, Repr, Inhabited

namespace RelationSchema

def reference (many : Bool) : RelationSchema :=
  ⟨if many then .oneToMany else .manyToOne, .restrict, none⟩

def embed (r : RelationSchema) : RelationSchema :=
  { r with onDelete := .cascade, embedded := some true }

def isEmbedded (r : RelationSchema) : Bool := r.embedded.getD false

end RelationSchema

structure EditSchema where
  optional : Bool
  deriving DecidableEq, Repr, Inhabited

structure DetailView where
  group : String
  component : String
  deriving DecidableEq, Repr, Inhabited

structure ViewSchema where
  list : Option Bool
  detail : DetailView
  deriving DecidableEq, Repr, Inhabited

structure AttributeSchema where
  name : String
  /-- The word `enum`, a primitive, or the class that is referred to. -/
  type : String
  enumValues : Option (List String)
  relation : Option RelationSchema
  edit : Option EditSchema
  view : ViewSchema
  search : Option Bool
  externalKey : Option Bool
  deriving DecidableEq, Repr, Inhabited

namespace AttributeSchema

def isOptional (a : AttributeSchema) : Bool := a.edit.any (·.optional)

def isSearchable (a : AttributeSchema) : Bool := a.search.getD false

def isExternalKey (a : AttributeSchema) : Bool := a.externalKey.getD false

def inList (a : AttributeSchema) : Bool := a.view.list.getD false

def isEmbedded (a : AttributeSchema) : Bool := a.relation.any (·.isEmbedded)

end AttributeSchema

structure ClassSchema where
  name : String
  icon : String
  /-- A template with field names in braces. -/
  title : String
  attributes : List AttributeSchema
  permissions : Permissions
  derivesFrom : Option String
  deriving DecidableEq, Repr, Inhabited

def ClassSchema.attribute? (s : ClassSchema) (name : String) : Option AttributeSchema :=
  s.attributes.find? (·.name = name)

inductive SchemaOutput where
  | one (schema : ClassSchema)
  | all (schemas : List ClassSchema)
  deriving DecidableEq, Repr, Inhabited

namespace SchemaOutput

def toList : SchemaOutput → List ClassSchema
  | one schema => [schema]
  | all schemas => schemas

def size (o : SchemaOutput) : Nat := o.toList.length

def isEmpty (o : SchemaOutput) : Bool := o.toList.isEmpty

end SchemaOutput

end ClassDiagram
