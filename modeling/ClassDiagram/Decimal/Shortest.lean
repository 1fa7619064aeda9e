import ClassDiagram.Decimal.Basic
/-!
The shortest decimal that a double is read back from. Of the powers of ten that have a multiple
among the numbers which round to the double, the coarsest is taken, and of its multiples the
nearest.
-/

namespace ClassDiagram.Decimal

inductive Tie where
  | toEven
  | up
  deriving DecidableEq, Repr

/-- A positive number and the ends of an interval around it, as numerators over one denominator. -/
structure Span where
  value : Nat
  low : Nat
  high : Nat
  closed : Bool
  denominator : Nat
  deriving Repr

/--
The reals that round to `mantissa * 2 ^ power`. Below a power of two the doubles lie twice as close,
unless they are already as close as can be.
-/
def Span.ofBinary (mantissa : Nat) (power : Int) (closer : Bool) : Span :=
  let scale := Nat.pow 2 (power - 2).toNat
  { value := 4 * mantissa * scale
    low := (4 * mantissa - (if closer then 1 else 2)) * scale
    high := (4 * mantissa + 2) * scale
    closed := mantissa % 2 = 0
    denominator := Nat.pow 2 (2 - power).toNat }

def fractionLimit : Nat := Nat.pow 2 52

/-- The exponent of a double has eleven bits; the greatest is that of infinity. -/
def infiniteExponent : Nat := 2047

def Span.ofBits (bits : Nat) : Span :=
  let fraction := bits % fractionLimit
  let exponent := bits / fractionLimit
  if exponent = 0 then .ofBinary fraction (-1074) false
  else .ofBinary (fractionLimit + fraction) ((exponent : Int) - 1075) (fraction = 0 && 1 < exponent)

/-- The multiple of `10 ^ power` in the span that is nearest to its value, as a factor. -/
def Span.multiple? (s : Span) (tie : Tie) (power : Int) : Option Nat :=
  let up := Nat.pow 10 (-power).toNat
  let unit := s.denominator * Nat.pow 10 power.toNat
  let factor := s.value * up / unit
  let fits (n : Nat) : Bool :=
    if s.closed then s.low * up ≤ n * unit && n * unit ≤ s.high * up
    else s.low * up < n * unit && n * unit < s.high * up
  let rest := s.value * up % unit
  let aboveIsNearer : Bool :=
    unit < 2 * rest || (unit = 2 * rest && (tie = .up || factor % 2 = 1))
  match fits factor, fits (factor + 1) with
  | true, true => some (if aboveIsNearer then factor + 1 else factor)
  | true, false => some factor
  | false, true => some (factor + 1)
  | false, false => none

def Span.search (s : Span) (tie : Tie) : Nat → Int → Nat × Int
  | 0, power => (s.value * Nat.pow 10 (-power).toNat / s.denominator, power)
  | steps + 1, power =>
    match s.multiple? tie power with
    | some factor => (factor, power)
    | none => Span.search s tie steps (power - 1)

def Span.shortest (s : Span) (tie : Tie) : Nat × Int :=
  let places := (digits (s.value / s.denominator)).length
  -- the least double is above the 400th decimal place, so the search finds a multiple
  s.search tie (places + 400) places

def shortest (tie : Tie) (bits : Nat) : Nat × Int :=
  if bits = 0 then (0, 0) else (Span.ofBits bits).shortest tie

def positional (negative : Bool) (factor : Nat) (power : Int) : Decimal :=
  let ds := digits factor ++ List.replicate power.toNat 0
  let places := (-power).toNat
  let ds := List.replicate (places + 1 - ds.length) 0 ++ ds
  { negative
    whole := ds.take (ds.length - places)
    fraction := ds.drop (ds.length - places)
    exponent := none }

def scientific (negative : Bool) (factor : Nat) (power : Int) : Decimal :=
  let ds := digits factor
  { negative
    whole := ds.take 1
    fraction := ds.drop 1
    exponent := some (power + (ds.length - 1 : Nat)) }

structure Style where
  tie : Tie
  /-- The least and the greatest exponent of the first digit for which no exponent is written. -/
  positionalFrom : Option (Int × Int)
  zeroFraction : Bool
  deriving Repr

def ofFloat? (style : Style) (x : Float) : Option Decimal :=
  let bits := x.toBits.toNat
  let signLimit := (infiniteExponent + 1) * fractionLimit
  let negative : Bool := signLimit ≤ bits
  let magnitude := bits % signLimit
  if infiniteExponent * fractionLimit ≤ magnitude then none
  else
    let (factor, power) := shortest style.tie magnitude
    let leading := power + (digits factor).length - 1
    let isPositional : Bool :=
      match style.positionalFrom with
      | none => true
      | some (least, greatest) => magnitude = 0 || (least ≤ leading && leading ≤ greatest)
    if isPositional then
      let d := positional negative factor power
      let fraction := if style.zeroFraction && d.fraction.isEmpty then [0] else d.fraction
      some { d with fraction }
    else some (scientific negative factor power)

end ClassDiagram.Decimal
