/-! # Exact values of binary numbers

A finite 64-bit floating point number is an integer times a power of two. Writing it in decimal starts from that exact
value and from the interval of numbers that are nearer to it than to its neighbours.
-/

namespace BitSerial.Decimal

/-- What the 64 bits of a floating point number stand for. -/
inductive Binary where
  | notANumber
  | infinite (negative : Bool)
  /-- `mantissa · 2 ^ exponent`. The gap to the next smaller number is half of the gap to the next larger one at the
  foot of a binade. -/
  | finite (negative : Bool) (mantissa : Nat) (exponent : Int) (atFoot : Bool)
  deriving DecidableEq, Repr

/-- The bit of a mantissa that is left out where a number is stored. -/
def Binary.hiddenBit : Nat := 0x10000000000000

/-- Takes the bits of a floating point number apart. -/
def Binary.ofBits (bits : UInt64) : Binary :=
  let bits := bits.toNat
  let negative := bits >>> 63 == 1
  let field := (bits >>> 52) % 2048
  let fraction := bits % hiddenBit
  if field = 2047 then
    if fraction = 0 then .infinite negative else .notANumber
  else if field = 0 then
    .finite negative fraction (-1074) false
  else
    .finite negative (hiddenBit + fraction) (Int.ofNat field - 1075) (fraction == 0 && 1 < field)

/-- A positive quotient of natural numbers. -/
structure Ratio where
  num : Nat
  den : Nat
  deriving DecidableEq, Repr

namespace Ratio

/-- A quotient times a power of a base. -/
def scale (ratio : Ratio) (base : Nat) (exponent : Int) : Ratio :=
  if 0 ≤ exponent then { ratio with num := ratio.num * base.pow exponent.toNat }
  else { ratio with den := ratio.den * base.pow (-exponent).toNat }

/-- The number of decimal digits of a natural number. Zero has one. -/
def digitCount (value : Nat) : Nat := (Nat.toDigits 10 value).length

/-- The exponent of the highest decimal digit: the largest `e` with `10 ^ e ≤ ratio`. -/
def highestDigit (ratio : Ratio) : Int :=
  if ratio.den ≤ ratio.num then Int.ofNat (digitCount (ratio.num / ratio.den)) - 1
  else -Int.ofNat (digitCount ((ratio.den - 1) / ratio.num))

/-- The nearest natural number. Of two that are equally near, it is the even one. -/
def roundHalfEven (ratio : Ratio) : Nat :=
  let below := ratio.num / ratio.den
  let rest := ratio.num % ratio.den
  if 2 * rest < ratio.den ∨ 2 * rest = ratio.den ∧ below % 2 = 0 then below else below + 1

end Ratio

end BitSerial.Decimal
