import BitSerial.Decimal.Binary

/-! # Shortest decimals

The shortest decimal of a binary number has the fewest digits among those that read back as the number. Of several with
as few digits it is the nearest to the number, and the larger of two that are equally near.
-/

namespace BitSerial.Decimal

/-- A decimal number: digits times a power of ten. -/
structure Digits where
  digits : Nat
  exponent : Int
  deriving DecidableEq, Repr

/-- The decimals that read back as a number: those between two ends. All three are numerators over one denominator. -/
structure Interval where
  low : Nat
  value : Nat
  high : Nat
  den : Nat
  /-- Whether the ends themselves read back. -/
  closed : Bool
  deriving DecidableEq, Repr

namespace Interval

/-- The interval of a positive binary number: half the gap to either neighbour. -/
def ofFinite (mantissa : Nat) (exponent : Int) (atFoot : Bool) : Interval :=
  let unit := (Ratio.mk 1 4).scale 2 exponent
  { low := (4 * mantissa - if atFoot then 1 else 2) * unit.num
    value := 4 * mantissa * unit.num
    high := (4 * mantissa + 2) * unit.num
    den := unit.den
    closed := mantissa % 2 == 0 }

/-- The same interval measured in units of a power of ten. -/
def scaled (interval : Interval) (exponent : Int) : Interval :=
  let unit := (Ratio.mk 1 1).scale 10 exponent
  { interval with
    low := interval.low * unit.den
    value := interval.value * unit.den
    high := interval.high * unit.den
    den := interval.den * unit.num }

/-- Whether a natural number is in the interval. -/
def contains (interval : Interval) (number : Nat) : Bool :=
  let point := number * interval.den
  if interval.closed then interval.low ≤ point && point ≤ interval.high
  else interval.low < point && point < interval.high

/-- The natural number in the interval that is nearest to the value, if there is one. -/
def nearest? (interval : Interval) : Option Nat :=
  let below := interval.value / interval.den
  match interval.contains below, interval.contains (below + 1) with
  | true, true => if 2 * (interval.value % interval.den) < interval.den then some below else some (below + 1)
  | true, false => some below
  | false, true => some (below + 1)
  | false, false => none

/-- Tries ever finer decimal grids, from one whose unit is a given power of ten. -/
def search (interval : Interval) : (tries : Nat) → (exponent : Int) → Digits
  | 0, exponent =>
    let fine := interval.scaled exponent
    ⟨fine.value / fine.den, exponent⟩
  | tries + 1, exponent =>
    match (interval.scaled exponent).nearest? with
    | some digits => ⟨digits, exponent⟩
    | none => search interval tries (exponent - 1)

end Interval

/-- The shortest decimal of a positive binary number. Seventeen digits always suffice. -/
def shortest (mantissa : Nat) (exponent : Int) (atFoot : Bool) : Digits :=
  let interval := Interval.ofFinite mantissa exponent atFoot
  interval.search 17 (Ratio.mk interval.value interval.den).highestDigit

end BitSerial.Decimal
