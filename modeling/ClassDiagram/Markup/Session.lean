import ClassDiagram.Markup.Head
import ClassDiagram.Markup.Line
import ClassDiagram.Markup.Member
import ClassDiagram.Relation.Table
import ClassDiagram.Text.Line
/-!
Reading a diagram. A session takes one line after another and builds a model; a line that it does
not understand is passed over, so every text has a model.
-/

namespace ClassDiagram.Markup
open Text

inductive EntityKind where
  | classes
  | interfaces
  | enums
  deriving DecidableEq, Repr

structure EntityRef where
  kind : EntityKind
  index : Nat
  deriving DecidableEq, Repr

/-- Where a session stands. The package around it is kept apart. -/
inductive Mode where
  | outside
  /-- Behind a head without a brace; a line with nothing but the brace opens the body. -/
  | declared (entity : EntityRef)
  | body (entity : EntityRef)
  | note (resume : Mode)
  | comment (resume : Mode)
  deriving DecidableEq, Repr

structure Session where
  model : Model
  mode : Mode
  package : Option String
  deriving DecidableEq, Repr

namespace Session

def start : Session := ⟨Model.empty, .outside, none⟩

def addMember (m : Model) (entity : EntityRef) (line : List Char) : Model :=
  match entity.kind with
  | .classes =>
    if hasParentheses line then
      match Scan.leftmost readMethod line with
      | some f => m.addMethod entity.index f
      | none => m
    else
      match readAttribute line with
      | some a => m.addAttribute entity.index a
      | none => m
  | .interfaces =>
    if hasParentheses line then m
    else
      match readAttribute line with
      | some a => m.addInterfaceAttribute entity.index a
      | none => m
  | .enums =>
    match readValue line with
    | some v => m.addValue entity.index v
    | none => m

/-- A line inside a body. A brace at its end may close the body after what stands before it. -/
def readBody (s : Session) (entity : EntityRef) (line : List Char) : Session :=
  let closes := closesBody line
  let content := if closes then trim line.dropLast else line
  let model :=
    if content = [] || isSeparator content then s.model else addMember s.model entity content
  { s with model, mode := if closes then .outside else .body entity }

/--
The session behind the head of an entity: a brace opens the body, which may start on that line.
-/
def enter (s : Session) (entity : EntityRef) (rest : List Char) : Session :=
  match cut? ['\x7b'] rest with
  | none => { s with mode := .declared entity }
  | some (_, inner) =>
    let inner := trim inner
    if inner = [] then { s with mode := .body entity } else s.readBody entity inner

def openPackage (s : Session) (line : List Char) : Session :=
  match readPackage line with
  | none => s
  | some name => { s with model := s.model.addPackage name, package := some name }

def declareClass (s : Session) (line : List Char) : Session :=
  match readClassHead line with
  | none => s
  | some (head, rest) =>
    enter { s with model := s.model.addClass ⟨head.name, head.displayName, s.package, [], []⟩ }
      ⟨.classes, s.model.classes.length⟩ rest

def declareInterface (s : Session) (line : List Char) : Session :=
  match readNamed "interface" line with
  | none => s
  | some (name, rest) =>
    enter { s with model := s.model.addInterface ⟨name, s.package, []⟩ }
      ⟨.interfaces, s.model.interfaces.length⟩ rest

def declareEnum (s : Session) (line : List Char) : Session :=
  match readNamed "enum" line with
  | none => s
  | some (name, rest) =>
    enter { s with model := s.model.addEnum ⟨name, s.package, []⟩ }
      ⟨.enums, s.model.enums.length⟩ rest

/-- A line that is no brace and no declaration: a member inside a body, a relation elsewhere. -/
def readContent (s : Session) (line : List Char) : Session :=
  match s.mode with
  | .body entity => s.readBody entity line
  | _ =>
    match Relation.find? line with
    | some r => { s with model := (s.model.addRelation r).1 }
    | none => s

def leaveBody (s : Session) : Session :=
  match s.mode with
  | .body _ => { s with mode := .outside }
  | _ => s

/-- A line that is no blank, directive, comment or note, in a session that awaits no brace. -/
def readStatement (s : Session) (line : List Char) : Session :=
  if s.mode = .outside ∧ isPackageLine line then s.openPackage line
  -- a session has one package, so this brace leaves all that are open
  else if s.mode = .outside ∧ line = ['\x7d'] ∧ s.package.isSome then { s with package := none }
  else if isClassLine line then s.declareClass line
  else if isInterfaceLine line then s.declareInterface line
  else if isEnumLine line then s.declareEnum line
  else if line = ['\x7d'] then s.leaveBody
  else s.readContent line

def readLine (s : Session) (line : List Char) : Session :=
  if line = [] || isDirective line then s
  else if opensComment line then
    if isWholeComment line then s else { s with mode := .comment s.mode }
  else if opensNote line then
    if isWholeNote line then s else { s with mode := .note s.mode }
  else
    match s.mode with
    | .declared entity =>
      if line = ['\x7b'] then { s with mode := .body entity }
      else readStatement { s with mode := .outside } line
    | _ => s.readStatement line

def step (s : Session) (line : List Char) : Session :=
  match s.mode with
  | .note resume => if closesNote (trim line) then { s with mode := resume } else s
  | .comment resume => if closesComment (trim line) then { s with mode := resume } else s
  | _ => s.readLine (trim line)

def run (s : Session) (lines : List (List Char)) : Session := lines.foldl step s

end Session

def sessionAfter (text : String) : Session := Session.start.run (lines text.toList)

def parse (text : String) : Model := (sessionAfter text).model

/-- Whether a line, seen alone, starts a diagram, declares an entity or relates two. -/
def isTelling (line : List Char) : Bool :=
  startsWith "@startuml".toList line ||
    isClassLine line || isInterfaceLine line || isEnumLine line ||
    (Relation.find? line).isSome

def canParse (text : String) : Bool := (lines text.toList).any fun line => isTelling (trim line)

def markupName : String × String := ("plantuml", "0.1.0")

end ClassDiagram.Markup
