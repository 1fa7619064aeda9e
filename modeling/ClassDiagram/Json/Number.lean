import ClassDiagram.Decimal.Double
import ClassDiagram.Decimal.Shortest
import ClassDiagram.Json.Basic
/-! Numbers of JSON as doubles and as words. -/

namespace ClassDiagram.Json

/--
A double is written with the fewest digits that read back; it has an exponent below the fifth
decimal place and from the seventeenth digit on, and a point otherwise.
-/
def doubleStyle : Decimal.Style := ⟨.toEven, some (-5, 15), true⟩

def ofFloat (x : Float) : Json :=
  match Decimal.ofFloat? doubleStyle x with
  | some d => number d
  | none => null

def float? : Json → Option Float
  | number d => d.toFloat?
  | _ => none

def ofNat (n : Nat) : Json := number ⟨false, Decimal.digits n, [], none⟩

def word? : Json → Option Nat
  | number d => d.toWord?
  | _ => none

/-- How deep values that are looked at more than once may lie inside each other. -/
def depthLimit : Nat := 128

mutual

def hasValues : Json → Bool
  | number d => d.toFloat?.isSome
  | string s => s.isSome
  | array items => haveValues items
  | object members => membersHaveValues members
  | _ => true

def haveValues : List Json → Bool
  | [] => true
  | v :: vs => v.hasValues && haveValues vs

def membersHaveValues : List (Literal × Json) → Bool
  | [] => true
  | (key, v) :: ms => key.isSome && v.hasValues && membersHaveValues ms

end

def isPlain (v : Json) : Bool := v.hasValues && v.depth < depthLimit

end ClassDiagram.Json
