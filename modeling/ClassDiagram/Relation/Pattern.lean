import ClassDiagram.Relation.Basic
import ClassDiagram.Scan
/-!
Shapes of relation lines. A shape is a subject, the pieces of an arrow and a target, read one after
the other without going back; what follows the target is left alone.
-/

namespace ClassDiagram.Relation
open Text

def isTurn (c : Char) : Bool := c = 'u' || c = 'd' || c = 'l' || c = 'r'

/-- The name in front of an arrow; a member may be named after it, and blanks follow. -/
inductive Subject where
  | entity
  | member
  deriving DecidableEq, Repr

inductive Piece where
  | text (s : String)
  | run (c : Char)
  | style
  | turn
  /-- Dots, a turning letter and dots; without such a beginning, two or more dots. -/
  | turnedDots
  deriving DecidableEq, Repr

/--
The name behind an arrow. Blanks in front of it may be missing if it is `near` and must not if it is
`spaced`; `turned` lets a turning letter and a dash stand before them.
-/
inductive Target where
  | near
  | spaced
  | turned
  deriving DecidableEq, Repr

/-- The text behind a member that is named with `::`, or all of it. -/
def skipMember (cs : List Char) : List Char :=
  match (after? "::".toList cs).bind Scan.word with
  | some (_, rest) => rest
  | none => cs

def Subject.read (s : Subject) (cs : List Char) : Option (List Char × List Char) := do
  let (name, rest) ← Scan.word cs
  let rest := match s with
    | .entity => rest
    | .member => skipMember rest
  let (_, rest) ← Scan.someBlanks rest
  return (name, rest)

def skipTurnedDots (cs : List Char) : Option (List Char) := do
  let (_, rest) ← Scan.run (· = '.') cs
  match rest with
  | [] => none
  | t :: rest =>
    if isTurn t then (Scan.run (· = '.') rest).map Prod.snd else none

def skipTwoDots : List Char → Option (List Char)
  | '.' :: cs => (Scan.run (· = '.') cs).map Prod.snd
  | _ => none

def Piece.skip : Piece → List Char → Option (List Char)
  | .text s, cs => after? s.toList cs
  | .run c, cs => (Scan.run (· = c) cs).map Prod.snd
  | .style, cs => (Scan.bracket cs).map Prod.snd
  | .turn, t :: cs => some (if isTurn t then cs else t :: cs)
  | .turn, [] => some []
  | .turnedDots, cs =>
    match skipTurnedDots cs with
    | some rest => some rest
    | none => skipTwoDots cs

def skipPieces : List Piece → List Char → Option (List Char)
  | [], cs => some cs
  | p :: ps, cs => (p.skip cs).bind (skipPieces ps)

def readDashed : List Char → Option (List Char × List Char)
  | '-' :: cs => Scan.word (trimStart cs)
  | cs => Scan.word (trimStart cs)

def Target.read : Target → List Char → Option (List Char × List Char)
  | .near, cs => Scan.word (trimStart cs)
  | .spaced, cs => (Scan.someBlanks cs).bind fun p => Scan.word p.2
  | .turned, [] => none
  | .turned, t :: cs =>
    if isTurn t then
      match readDashed cs with
      | some found => some found
      | none => readDashed (t :: cs)
    else readDashed (t :: cs)

structure Pattern where
  kind : RelationKind
  subject : Subject
  arrow : List Piece
  target : Target
  deriving DecidableEq, Repr

def Pattern.read? (p : Pattern) (cs : List Char) : Option Relation := do
  let (source, rest) ← p.subject.read cs
  let rest ← skipPieces p.arrow rest
  let (target, _) ← p.target.read rest
  return ⟨String.ofList source, String.ofList target, p.kind⟩

end ClassDiagram.Relation
