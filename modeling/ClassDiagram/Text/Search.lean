/-! Looking for a piece of text inside another, and cutting a text where the piece stands first. -/

namespace ClassDiagram.Text

def after? : (piece text : List Char) → Option (List Char)
  | [], text => some text
  | _ :: _, [] => none
  | p :: piece, c :: text => if p = c then after? piece text else none

def startsWith (piece text : List Char) : Bool := (after? piece text).isSome

def endsWith (piece text : List Char) : Bool := startsWith piece.reverse text.reverse

def cut? (piece : List Char) : List Char → Option (List Char × List Char)
  | [] => if piece = [] then some ([], []) else none
  | c :: text =>
    match after? piece (c :: text) with
    | some rest => some ([], rest)
    | none => (cut? piece text).map fun p => (c :: p.1, p.2)

def contains (piece text : List Char) : Bool := (cut? piece text).isSome

/-- The text up to the first place where `piece` stands, or all of it. -/
def before (piece text : List Char) : List Char := ((cut? piece text).map Prod.fst).getD text

/-- The text without the places where `a` and `b` stand in a row, read from the left. -/
def erasePair (a b : Char) : List Char → List Char
  | x :: y :: rest => if x = a ∧ y = b then erasePair a b rest else x :: erasePair a b (y :: rest)
  | cs => cs

end ClassDiagram.Text
