import ClassDiagram.Text.Blank
/-!
Types with a cardinality in brackets behind them. One that starts with `0` makes the field optional,
one with `n` or `*` in it makes it a list.
-/

namespace ClassDiagram
open Text

structure TypeSpec where
  base : String
  optional : Bool
  many : Bool
  deriving DecidableEq, Repr, Inhabited

namespace TypeSpec

/--
The shortest text that is not empty and has a bracket and more behind it, and what that more is.
-/
def splitCardinality : List Char → Option (List Char × List Char)
  | [] => none
  | c :: cs =>
    match cs with
    | '[' :: d :: card => some ([c], d :: card)
    | _ => (splitCardinality cs).map fun p => (c :: p.1, p.2)

def split? (raw : List Char) : Option (List Char × List Char) :=
  if raw.getLast? = some ']' then splitCardinality raw.dropLast else none

def parse (raw : String) : TypeSpec :=
  match split? raw.toList with
  | some (base, card) =>
    ⟨String.ofList (trim base), card.head? = some '0', 'n' ∈ card || '*' ∈ card⟩
  | none => ⟨raw, false, false⟩

end TypeSpec

end ClassDiagram
