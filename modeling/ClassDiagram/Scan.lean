import ClassDiagram.Text.Blank
import ClassDiagram.Text.Search
import ClassDiagram.Text.Word
/-!
Recognisers. Each reads one piece at the front of a text and returns what it read with the rest. A
run takes all it can and gives nothing back.
-/

namespace ClassDiagram.Scan
open Text

def run (p : Char → Bool) (cs : List Char) : Option (List Char × List Char) :=
  match cs.takeWhile p with
  | [] => none
  | taken => some (taken, cs.dropWhile p)

def word (cs : List Char) : Option (List Char × List Char) := run isWordChar cs

def blanks (cs : List Char) : List Char × List Char := (cs.takeWhile isBlank, trimStart cs)

def someBlanks (cs : List Char) : Option (List Char × List Char) := run isBlank cs

/-- A text between double quotes that is not empty. The quotes are left out of what is returned. -/
def quoted : List Char → Option (List Char × List Char)
  | '"' :: cs =>
    match run (· ≠ '"') cs with
    | some (inner, '"' :: rest) => some (inner, rest)
    | _ => none
  | _ => none

/-- A text between square brackets, perhaps empty, with its brackets. -/
def bracket : List Char → Option (List Char × List Char)
  | '[' :: cs =>
    match cs.dropWhile (· ≠ ']') with
    | ']' :: rest => some ('[' :: cs.takeWhile (· ≠ ']') ++ [']'], rest)
    | _ => none
  | _ => none

def restOfLine (cs : List Char) : List Char × List Char := (cs, [])

/-- The reading of the longest rest of a text that can be read at its front. -/
def leftmost {α : Type} (read : List Char → Option α) : List Char → Option α
  | [] => none
  | c :: cs =>
    match read (c :: cs) with
    | some a => some a
    | none => leftmost read cs

end ClassDiagram.Scan
