import ClassDiagram.Json.Basic
/-!
Writing JSON text, in one line or indented by two blanks. Characters beyond ASCII are written as
they are.
-/

namespace ClassDiagram.Json

def hexDigit (n : Nat) : Char := if n < 10 then Char.ofNat (48 + n) else Char.ofNat (87 + n)

def escape (c : Char) : List Char :=
  if c = '"' then ['\\', '"']
  else if c = '\\' then ['\\', '\\']
  else if c = '\x08' then ['\\', 'b']
  else if c = '\x0c' then ['\\', 'f']
  else if c = '\n' then ['\\', 'n']
  else if c = '\r' then ['\\', 'r']
  else if c = '\t' then ['\\', 't']
  else if c.toNat < 0x20 then
    ['\\', 'u', '0', '0', hexDigit (c.toNat / 16), hexDigit (c.toNat % 16)]
  else [c]

/-- A string literal. Without a text it is one half of a surrogate pair. -/
def literal : Literal → List Char
  | some s => '"' :: s.toList.flatMap escape ++ ['"']
  | none => "\"\\ud800\"".toList

mutual

def compact : Json → List Char
  | null => "null".toList
  | bool true => "true".toList
  | bool false => "false".toList
  | number d => d.text
  | string s => literal s
  | array items => '[' :: compactItems items ++ [']']
  | object members => '\x7b' :: compactMembers members ++ ['\x7d']

def compactItems : List Json → List Char
  | [] => []
  | [v] => v.compact
  | v :: vs => v.compact ++ ',' :: compactItems vs

def compactMembers : List (Literal × Json) → List Char
  | [] => []
  | [(key, v)] => literal key ++ ':' :: v.compact
  | (key, v) :: ms => literal key ++ ':' :: v.compact ++ ',' :: compactMembers ms

end

def newLine (indent : Nat) : List Char := '\n' :: List.replicate (2 * indent) ' '

mutual

def indented (indent : Nat) : Json → List Char
  | null => "null".toList
  | bool true => "true".toList
  | bool false => "false".toList
  | number d => d.text
  | string s => literal s
  | array [] => "[]".toList
  | array (v :: vs) => '[' :: indentedItems (indent + 1) (v :: vs) ++ newLine indent ++ [']']
  | object [] => ['\x7b', '\x7d']
  | object (m :: ms) =>
    '\x7b' :: indentedMembers (indent + 1) (m :: ms) ++ newLine indent ++ ['\x7d']

def indentedItems (indent : Nat) : List Json → List Char
  | [] => []
  | [v] => newLine indent ++ v.indented indent
  | v :: vs => newLine indent ++ v.indented indent ++ ',' :: indentedItems indent vs

def indentedMembers (indent : Nat) : List (Literal × Json) → List Char
  | [] => []
  | [(key, v)] => newLine indent ++ literal key ++ ':' :: ' ' :: v.indented indent
  | (key, v) :: ms =>
    newLine indent ++ literal key ++ ':' :: ' ' :: v.indented indent ++
      ',' :: indentedMembers indent ms

end

def compactText (v : Json) : String := String.ofList v.compact

def prettyText (v : Json) : String := String.ofList (v.indented 0)

end ClassDiagram.Json
