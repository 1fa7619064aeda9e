import ClassDiagram.Decimal.Basic
/-!
Values of JSON. An object keeps its members as they are written, keys that repeat among them, and a
number keeps its literal.
-/

namespace ClassDiagram

/--
The text of a string literal. There is none if an escape names one half of a surrogate pair without
the other; such a literal may stand where nobody asks for its text.
-/
abbrev Literal := Option String

inductive Json where
  | null
  | bool (b : Bool)
  | number (d : Decimal)
  | string (s : Literal)
  | array (items : List Json)
  | object (members : List (Literal × Json))
  deriving Repr, Inhabited

namespace Json

def ofText (s : String) : Json := string (some s)

/-- An object without the members that have no value. -/
def record (members : List (String × Option Json)) : Json :=
  object (members.filterMap fun (key, value) => value.map fun v => (some key, v))

def list {α : Type} (write : α → Json) (items : List α) : Json := array (items.map write)

def orNull {α : Type} (write : α → Json) : Option α → Json
  | some a => write a
  | none => null

mutual

def depth : Json → Nat
  | array items => depthOfItems items + 1
  | object members => depthOfMembers members + 1
  | _ => 0

def depthOfItems : List Json → Nat
  | [] => 0
  | v :: vs => max v.depth (depthOfItems vs)

def depthOfMembers : List (Literal × Json) → Nat
  | [] => 0
  | (_, v) :: ms => max v.depth (depthOfMembers ms)

end

end Json

end ClassDiagram
