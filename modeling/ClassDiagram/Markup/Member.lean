import ClassDiagram.Model.Basic
import ClassDiagram.Scan
/-! Members of a body: methods, attributes and values, each read from one trimmed line. -/

namespace ClassDiagram.Markup
open Text

def voidType : String := "void"

def defaultAttributeType : String := "String"

def afterColon? (cs : List Char) : Option (List Char) :=
  (after? [':'] (trimStart cs)).map trimStart

def returnType (cs : List Char) : String :=
  match afterColon? cs with
  | none => voidType
  | some rest => if trim rest = [] then voidType else String.ofList (trim rest)

/--
A method at the front of a text: a name, parameters in parentheses, and perhaps a return type.
-/
def readMethod (cs : List Char) : Option Method := do
  let (name, rest) ← Scan.word cs
  let inside ← after? ['('] (trimStart rest)
  let rest ← after? [')'] (inside.dropWhile (· ≠ ')'))
  return ⟨String.ofList name, returnType rest⟩

def readTyped (cs : List Char) : Option (List Char × List Char) := do
  let (name, rest) ← Scan.word cs
  let rest ← afterColon? rest
  if rest = [] then none else return (name, rest)

/-- The name on a line that holds nothing else, save a mark of visibility in front of it. -/
def readBare (line : List Char) : Option (List Char) := do
  let line := match line with
    | c :: cs => if c ∈ ['+', '-', '#', '~'] then cs else line
    | [] => line
  let (name, rest) ← Scan.word (trimStart line)
  if trimStart rest = [] then some name else none

/--
The type and the default value in what follows the colon of an attribute. Two slashes start a
comment, a mark of visibility may stand in front, and an equals sign leads to the default.
-/
def readType (raw : List Char) : String × Option String :=
  let text := trim (before "//".toList raw)
  let text := match text with
    | c :: cs => if c ∈ ['+', '-', '#', '~'] then trimStart cs else text
    | [] => text
  match cut? ['='] text with
  | some (type, value) => (String.ofList (trim type), some (String.ofList (trim value)))
  | none => (String.ofList text, none)

/-- The attribute on a line. With a colon in the line the leftmost name before one counts. -/
def readAttribute (line : List Char) : Option Attribute :=
  if ':' ∈ line then
    (Scan.leftmost readTyped line).map fun (name, raw) =>
      let (type, value) := readType raw
      ⟨String.ofList name, type, value⟩
  else (readBare line).map fun name => ⟨String.ofList name, defaultAttributeType, none⟩

def hasParentheses (line : List Char) : Bool := '(' ∈ line && ')' ∈ line

/-- The value on a line of an enumeration. Brackets are dropped; a colon makes the line no value. -/
def readValue (line : List Char) : Option String :=
  if ':' ∈ line then none
  else
    let value := trim (before "//".toList (line.filter fun c => c ≠ '[' && c ≠ ']'))
    if value = [] then none else some (String.ofList value)

end ClassDiagram.Markup
