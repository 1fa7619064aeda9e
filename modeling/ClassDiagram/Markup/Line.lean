import ClassDiagram.Text.Blank
import ClassDiagram.Text.Search
/-!
Kinds of lines. Every line is trimmed before it is looked at; a line may be of several kinds, and
the session asks for them in a fixed order.
-/

namespace ClassDiagram.Markup
open Text

def afterKeyword? (keyword : String) (line : List Char) : Option (List Char) :=
  (after? keyword.toList line).filter fun rest => rest.head?.any isBlank

def hasKeyword (keyword : String) (line : List Char) : Bool := (afterKeyword? keyword line).isSome

/-- Beginnings of lines that say nothing about the model. -/
def directives : List String :=
  ["'", "@startuml", "@enduml", "skinparam", "left to right", "top to bottom", "hide ", "!"]

def isDirective (line : List Char) : Bool := directives.any fun d => startsWith d.toList line

def isClassLine (line : List Char) : Bool :=
  match afterKeyword? "abstract" line with
  | some rest => hasKeyword "class" (trimStart rest)
  | none => hasKeyword "class" line

def isInterfaceLine (line : List Char) : Bool := hasKeyword "interface" line

def isEnumLine (line : List Char) : Bool := hasKeyword "enum" line

def isPackageLine (line : List Char) : Bool :=
  hasKeyword "package" line || hasKeyword "namespace" line

def opensComment (line : List Char) : Bool := startsWith "/'".toList line

def closesComment (line : List Char) : Bool := endsWith "'/".toList line

/-- Whether a line that opens a comment closes it, too, with marks that do not overlap. -/
def isWholeComment (line : List Char) : Bool := 3 < line.length && closesComment line

/-- Whether a line opens a note. A colon makes it an attribute with the name `note`. -/
def opensNote (line : List Char) : Bool :=
  ["note ", "floating note "].any fun opening =>
    match after? opening.toList line with
    | some rest => !startsWith [':'] (trimStart rest)
    | none => false

/-- Whether a note has its text on its first line. The `::` of a member is no colon here. -/
def isWholeNote (line : List Char) : Bool := ':' ∈ erasePair ':' ':' line || '"' ∈ line

def closesNote (line : List Char) : Bool := line = "end note".toList

/-- Whether a line inside a body only divides or decorates it. -/
def isSeparator (line : List Char) : Bool :=
  line = "..".toList || line = ['\x7b'] || line = ['\x7d'] || startsWith "==".toList line ||
    startsWith "--".toList line || startsWith "__".toList line

/-- Whether a brace at the end of a line closes the body around it, and none opened on the line. -/
def closesBody (line : List Char) : Bool :=
  line.getLast? = some '\x7d' && line.count '\x7b' < line.count '\x7d'

end ClassDiagram.Markup
