import ClassDiagram.Decimal.Basic
/-!
The double that a literal is read as. The digits are gathered in a word of 64 bits, digits that no
longer fit are dropped, and the word is scaled by powers of ten up to the 308th. The result may
differ from the nearest double in the last place.
-/

namespace ClassDiagram.Decimal

def wordLimit : Nat := Nat.pow 2 64

/-- Appends digits to a number as long as it stays below the limit; the digits left over follow. -/
def gather (limit : Nat) : Nat → List Digit → Nat × List Digit
  | n, [] => (n, [])
  | n, d :: ds => if 10 * n + d.val < limit then gather limit (10 * n + d.val) ds else (n, d :: ds)

def tenTo (power : Nat) : Float := Float.ofScientific 1 false power

def scale (x : Float) (power : Int) : Option Float :=
  if 0 ≤ power then
    if power ≤ 308 then
      let y := x * tenTo power.toNat
      if y.isInf then none else some y
    else if x == 0 then some x else none
  else if -power ≤ 308 then some (x / tenTo (-power).toNat)
  else if x == 0 then some x
  else scale (x / tenTo 308) (power + 308)
termination_by (-power).toNat

/-- The greatest exponent that is taken as it stands: the greatest signed number of 32 bits. -/
def exponentLimit : Int := 0x7FFFFFFF

def magnitude? (d : Decimal) : Option Float :=
  let (n, dropped) := gather wordLimit 0 d.whole
  let (n, unread) := gather wordLimit n d.fraction
  let point : Int := dropped.length - (d.fraction.length - unread.length : Nat)
  match d.exponent with
  | none => scale n.toFloat point
  | some power =>
    if exponentLimit < power then if n = 0 then some 0 else none
    else if power < -exponentLimit then some 0
    else scale n.toFloat (point + power)

def toFloat? (d : Decimal) : Option Float :=
  (magnitude? d).map fun x => if d.negative then -x else x

/-- Whether the literal is a whole number that fits a word, without a point, exponent or sign. -/
def toWord? (d : Decimal) : Option Nat :=
  if d.negative || d.fraction ≠ [] || d.exponent.isSome then none
  else
    let n := value d.whole
    if n < wordLimit then some n else none

end ClassDiagram.Decimal
