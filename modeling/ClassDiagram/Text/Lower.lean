import ClassDiagram.Text.Blank
import ClassDiagram.Text.LowerTable
/-!
Full lower-casing. One character may become two, and a capital sigma becomes a final sigma at the
end of a word.
-/

namespace ClassDiagram.Text

/-- The lower-case form of one character, seen without what stands around it. -/
def lowerChar (c : Char) : List Char :=
  if c.toNat < 0x80 then [c.toLower]
  else if c = 'İ' then ['i', '\u0307']
  else
    match lowerRuns.find? fun r =>
        r.first ≤ c.toNat && c.toNat ≤ r.last && (c.toNat - r.first) % r.stride = 0 with
    | some r => [Char.ofNat (c.toNat + r.offset).toNat]
    | none => [c]

def isCased (c : Char) : Bool := inRanges casedRanges c

def isIgnorable (c : Char) : Bool := inRanges ignorableRanges c

def meetsCased (cs : List Char) : Bool := (cs.dropWhile isIgnorable).head?.any isCased

/-- Lower-casing of a text that follows `passed`, which is given backwards. -/
def lowerAfter : (passed text : List Char) → List Char
  | _, [] => []
  | passed, c :: text =>
    (if c = 'Σ' then
      if meetsCased passed && !meetsCased text then ['ς'] else ['σ']
    else lowerChar c) ++ lowerAfter (c :: passed) text

def lower (cs : List Char) : List Char := lowerAfter [] cs

end ClassDiagram.Text
