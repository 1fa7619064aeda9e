import ClassDiagram.Scan
/-! Heads of declarations: the keyword, the name, and the rest of the line. -/

namespace ClassDiagram.Markup
open Text

structure ClassHead where
  name : String
  displayName : String
  deriving DecidableEq, Repr

/--
A name for a quoted text: the text without its line-break marks, which are `\n` in two characters.
-/
def plainName (quoted : List Char) : List Char := erasePair '\\' 'n' quoted

def readAliased (cs : List Char) : Option (ClassHead × List Char) := do
  let (shown, rest) ← Scan.quoted cs
  let (_, rest) ← Scan.someBlanks rest
  let rest ← after? "as".toList rest
  let (_, rest) ← Scan.someBlanks rest
  let (name, rest) ← Scan.word rest
  return (⟨String.ofList name, String.ofList shown⟩, rest)

def readQuoted (cs : List Char) : Option (ClassHead × List Char) := do
  let (shown, rest) ← Scan.quoted cs
  return (⟨String.ofList (plainName shown), String.ofList shown⟩, rest)

def readPlain (cs : List Char) : Option (ClassHead × List Char) := do
  let (name, rest) ← Scan.word cs
  return (⟨String.ofList name, String.ofList name⟩, rest)

def skipKeyword? (keyword : String) (line : List Char) : Option (List Char) :=
  ((after? keyword.toList line).bind Scan.someBlanks).map Prod.snd

def readClassHead (line : List Char) : Option (ClassHead × List Char) := do
  let rest ← skipKeyword? "class" ((skipKeyword? "abstract" line).getD line)
  match readAliased rest with
  | some head => some head
  | none =>
    match readQuoted rest with
    | some head => some head
    | none => readPlain rest

def readNamed (keyword : String) (line : List Char) : Option (String × List Char) := do
  let rest ← skipKeyword? keyword line
  let (name, rest) ← Scan.word rest
  return (String.ofList name, rest)

/-- The name in the head of a package, or of a namespace, which is the same. -/
def readPackage (line : List Char) : Option String :=
  let keyword := if startsWith "package".toList line then "package" else "namespace"
  (readNamed keyword line).map Prod.fst

end ClassDiagram.Markup
