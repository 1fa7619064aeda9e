import ClassDiagram.Text.Search
/-!
Decimal literals: a sign, the digits of a whole number, the digits of a fraction and an exponent.
Reading takes the longest literal; no zero leads unless it stands alone.
-/

namespace ClassDiagram

abbrev Digit := Fin 10

structure Decimal where
  negative : Bool
  whole : List Digit
  fraction : List Digit
  exponent : Option Int
  deriving DecidableEq, Repr, Inhabited

namespace Decimal

def digitChar (d : Digit) : Char := Char.ofNat (48 + d.val)

def digit? (c : Char) : Option Digit :=
  if h : 48 ≤ c.toNat ∧ c.toNat < 58 then some ⟨c.toNat - 48, by omega⟩ else none

/-- The digits of a natural number, the last one in front. -/
def digitsFromUnits (n : Nat) : List Digit :=
  ⟨n % 10, by omega⟩ :: if n < 10 then [] else digitsFromUnits (n / 10)

def digits (n : Nat) : List Digit := (digitsFromUnits n).reverse

def value (ds : List Digit) : Nat := ds.foldl (fun n d => 10 * n + d.val) 0

def readDigits : List Char → List Digit × List Char
  | [] => ([], [])
  | c :: cs =>
    match digit? c with
    | some d => let (ds, rest) := readDigits cs; (d :: ds, rest)
    | none => ([], c :: cs)

def readSomeDigits (cs : List Char) : Option (List Digit × List Char) :=
  match readDigits cs with
  | ([], _) => none
  | found => some found

/-- The digits in front of the point. A zero stands alone. -/
def readWhole (cs : List Char) : Option (List Digit × List Char) :=
  match readSomeDigits cs with
  | some (0 :: _ :: _, _) => none
  | found => found

def readFraction : List Char → Option (List Digit × List Char)
  | '.' :: cs => readSomeDigits cs
  | cs => some ([], cs)

def readPower : List Char → Option (Int × List Char)
  | '-' :: cs => (readSomeDigits cs).map fun (ds, rest) => (-(value ds : Int), rest)
  | '+' :: cs => (readSomeDigits cs).map fun (ds, rest) => ((value ds : Int), rest)
  | cs => (readSomeDigits cs).map fun (ds, rest) => ((value ds : Int), rest)

def readExponent : List Char → Option (Option Int × List Char)
  | 'e' :: cs | 'E' :: cs => (readPower cs).map fun (power, rest) => (some power, rest)
  | cs => some (none, cs)

def read (cs : List Char) : Option (Decimal × List Char) := do
  let (negative, cs) := match cs with
    | '-' :: cs => (true, cs)
    | cs => (false, cs)
  let (whole, cs) ← readWhole cs
  let (fraction, cs) ← readFraction cs
  let (exponent, cs) ← readExponent cs
  return (⟨negative, whole, fraction, exponent⟩, cs)

def text (d : Decimal) : List Char :=
  (if d.negative then ['-'] else []) ++ d.whole.map digitChar ++
    (if d.fraction = [] then [] else '.' :: d.fraction.map digitChar) ++
    match d.exponent with
    | none => []
    | some power => 'e' :: (toString power).toList

end Decimal

end ClassDiagram
