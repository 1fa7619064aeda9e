import ClassDiagram.Json.Basic
import ClassDiagram.NameMap
/-!
Reading values of known shape from JSON. A record is an object with known keys, none of them twice,
or an array with the fields in their order. Other keys are passed over.
-/

namespace ClassDiagram.Json

structure Fields where
  /-- Whether they go by name; those of an array go by place. -/
  named : Bool
  given : List (String × Json)

def knownMembers (keys : List String) : List (Literal × Json) → Option (List (String × Json))
  | [] => some []
  | (none, _) :: _ => none
  | (some key, v) :: ms => do
    let rest ← knownMembers keys ms
    if key ∈ keys then
      if (rest.lookup key).isSome then none else return (key, v) :: rest
    else return rest

def fields? (keys : List String) : Json → Option Fields
  | object members => (knownMembers keys members).map (⟨true, ·⟩)
  | array items => if items.length ≤ keys.length then some ⟨false, keys.zip items⟩ else none
  | _ => none

namespace Fields

variable {α : Type}

def find? (f : Fields) (key : String) : Option Json := f.given.lookup key

def required (f : Fields) (key : String) (read : Json → Option α) : Option α :=
  (f.find? key).bind read

def orElse (f : Fields) (key : String) (read : Json → Option α) (default : α) : Option α :=
  match f.find? key with
  | some v => read v
  | none => some default

end Fields

def orNull? {α : Type} (read : Json → Option α) : Json → Option (Option α)
  | null => some none
  | v => (read v).map some

namespace Fields

variable {α : Type}

def optional (f : Fields) (key : String) (read : Json → Option α) : Option (Option α) :=
  f.orElse key (orNull? read) none

/-- A field that may be `null`, and missing if the fields go by name. -/
def nullable (f : Fields) (key : String) (read : Json → Option α) : Option (Option α) :=
  if f.named then f.optional key read else f.required key (orNull? read)

end Fields

def bool? : Json → Option Bool
  | bool b => some b
  | _ => none

def text? : Json → Option String
  | string s => s
  | _ => none

def list? {α : Type} (read : Json → Option α) : Json → Option (List α)
  | array items => items.mapM read
  | _ => none

def member? {α : Type} (read : Json → Option α) (m : Literal × Json) : Option (String × α) := do
  return (← m.1, ← read m.2)

/-- The members of an object as a map, of which the last of each name counts. -/
def map? {α : Type} (read : Json → Option α) : Json → Option (NameMap α)
  | object members => (members.mapM (member? read)).map NameMap.ofList
  | _ => none

/-- One of some named values: its name, or an object with the name as its only key, and `null`. -/
def choice? {α : Type} (table : List (String × α)) : Json → Option α
  | string (some name) => table.lookup name
  | object [(some name, null)] => table.lookup name
  | _ => none

def ofMap {α : Type} (write : α → Json) (m : NameMap α) : Json :=
  object (m.entries.map fun e => (some e.1, write e.2))

end ClassDiagram.Json
