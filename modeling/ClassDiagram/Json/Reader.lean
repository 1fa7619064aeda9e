import ClassDiagram.Json.Basic
/-!
Reading JSON text, strictly: no comments, no comma behind the last element, no control characters in
string literals. Numbers of any size are read.
-/

namespace ClassDiagram.Json
open Text

/-- The white space of JSON, which is less than that of Unicode. -/
def isSpace (c : Char) : Bool := c = ' ' || c = '\n' || c = '\r' || c = '\t'

def skipSpace (cs : List Char) : List Char := cs.dropWhile isSpace

def hexDigit? (c : Char) : Option Nat :=
  if '0' ≤ c ∧ c ≤ '9' then some (c.toNat - 48)
  else if 'a' ≤ c ∧ c ≤ 'f' then some (c.toNat - 87)
  else if 'A' ≤ c ∧ c ≤ 'F' then some (c.toNat - 55)
  else none

def hexUnit? (a b c d : Char) : Option Nat := do
  let a ← hexDigit? a
  let b ← hexDigit? b
  let c ← hexDigit? c
  let d ← hexDigit? d
  return ((a * 16 + b) * 16 + c) * 16 + d

def escaped? : Char → Option Char
  | '"' => some '"'
  | '\\' => some '\\'
  | '/' => some '/'
  | 'b' => some '\x08'
  | 'f' => some '\x0c'
  | 'n' => some '\n'
  | 'r' => some '\r'
  | 't' => some '\t'
  | _ => none

/--
The code units in a string literal, read up to its closing quote. A character that is written as
itself is one unit, whatever its size.
-/
def readUnits : List Char → Option (List Nat × List Char)
  | [] => none
  | '"' :: cs => some ([], cs)
  | '\\' :: 'u' :: a :: b :: c :: d :: cs => do
    let unit ← hexUnit? a b c d
    let (units, rest) ← readUnits cs
    return (unit :: units, rest)
  | '\\' :: c :: cs => do
    let c ← escaped? c
    let (units, rest) ← readUnits cs
    return (c.toNat :: units, rest)
  | c :: cs =>
    if c.toNat < 0x20 || c = '\\' then none
    else do
      let (units, rest) ← readUnits cs
      return (c.toNat :: units, rest)

def isHighHalf (unit : Nat) : Bool := 0xD800 ≤ unit && unit < 0xDC00

def isLowHalf (unit : Nat) : Bool := 0xDC00 ≤ unit && unit < 0xE000

/-- The characters of code units; none if half of a surrogate pair stands alone. -/
def joinUnits : List Nat → Option (List Char)
  | [] => some []
  | [unit] => if isHighHalf unit || isLowHalf unit then none else some [Char.ofNat unit]
  | unit :: next :: units =>
    if isHighHalf unit then
      if isLowHalf next then
        (joinUnits units).map
          (Char.ofNat (0x10000 + (unit - 0xD800) * 0x400 + (next - 0xDC00)) :: ·)
      else none
    else if isLowHalf unit then none
    else (joinUnits (next :: units)).map (Char.ofNat unit :: ·)

def readLiteral (cs : List Char) : Option (Literal × List Char) :=
  (readUnits cs).map fun (units, rest) => ((joinUnits units).map String.ofList, rest)

def readKey (cs : List Char) : Option (Literal × List Char) := do
  let cs ← after? ['"'] (skipSpace cs)
  let (key, cs) ← readLiteral cs
  let cs ← after? [':'] (skipSpace cs)
  return (key, cs)

def readScalar (cs : List Char) : Option (Json × List Char) :=
  match cs with
  | '"' :: cs => (readLiteral cs).map fun (s, rest) => (string s, rest)
  | 'n' :: _ => (after? "null".toList cs).map fun rest => (null, rest)
  | 't' :: _ => (after? "true".toList cs).map fun rest => (bool true, rest)
  | 'f' :: _ => (after? "false".toList cs).map fun rest => (bool false, rest)
  | _ => (Decimal.read cs).map fun (d, rest) => (number d, rest)

mutual

/-- A value at the front of a text. The first argument bounds how deep the reading goes. -/
def readValue : Nat → List Char → Option (Json × List Char)
  | 0, _ => none
  | n + 1, cs =>
    match skipSpace cs with
    | '[' :: cs =>
      match skipSpace cs with
      | ']' :: cs => some (array [], cs)
      | cs => (readItems n cs).map fun (items, rest) => (array items, rest)
    | '\x7b' :: cs =>
      match skipSpace cs with
      | '\x7d' :: cs => some (object [], cs)
      | cs => (readMembers n cs).map fun (members, rest) => (object members, rest)
    | cs => readScalar cs

def readItems : Nat → List Char → Option (List Json × List Char)
  | 0, _ => none
  | n + 1, cs => do
    let (v, cs) ← readValue n cs
    match skipSpace cs with
    | ']' :: cs => some ([v], cs)
    | ',' :: cs => (readItems n cs).map fun (vs, rest) => (v :: vs, rest)
    | _ => none

def readMembers : Nat → List Char → Option (List (Literal × Json) × List Char)
  | 0, _ => none
  | n + 1, cs => do
    let (key, cs) ← readKey cs
    let (v, cs) ← readValue n cs
    match skipSpace cs with
    | '\x7d' :: cs => some ([(key, v)], cs)
    | ',' :: cs => (readMembers n cs).map fun (ms, rest) => ((key, v) :: ms, rest)
    | _ => none

end

def read? (cs : List Char) : Option Json :=
  -- of two nested calls one takes a character, so this depth stops no reading
  match readValue (2 * cs.length + 2) cs with
  | some (v, rest) => if skipSpace rest = [] then some v else none
  | none => none

def ofString? (text : String) : Option Json := read? text.toList

end ClassDiagram.Json
