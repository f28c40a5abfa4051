import BitSerial.Decimal.Shortest

/-! # Decimal text

Two written forms of a floating point number, both without an exponent: the shortest one that reads back, and one with
a fixed number of places, rounded from the exact value.
-/

namespace BitSerial.Decimal

/-- Digits with the point set before the last `places` of them. At least one digit stands before the point. -/
def withPoint (digits : List Char) (places : Nat) : List Char :=
  if places = 0 then digits
  else
    let digits := List.replicate (places + 1 - digits.length) '0' ++ digits
    digits.take (digits.length - places) ++ '.' :: digits.drop (digits.length - places)

/-- Drops zeros at the end of a list of digits, and says how many there were. -/
def dropZeros (digits : List Char) : List Char × Nat :=
  let kept := (digits.reverse.dropWhile (· == '0')).reverse
  (kept, digits.length - kept.length)

/-- A decimal number written out, without zeros at the end of its places. -/
def Digits.positional (number : Digits) : List Char :=
  let (digits, zeros) := dropZeros (Nat.toDigits 10 number.digits)
  let exponent := number.exponent + Int.ofNat zeros
  if 0 ≤ exponent then digits ++ List.replicate exponent.toNat '0'
  else withPoint digits (-exponent).toNat

/-- A number with its sign. Zero has a sign, too. -/
def signed (negative : Bool) (magnitude : List Char) : String :=
  String.ofList (if negative then '-' :: magnitude else magnitude)

/-- The text of a number that is not finite. -/
def nonFinite (negative : Bool) : String := if negative then "-inf" else "inf"

/-- The shortest text that reads back as the number. -/
def shortestText (number : Float) : String :=
  match Binary.ofBits number.toBits with
  | .notANumber => "NaN"
  | .infinite negative => nonFinite negative
  | .finite negative mantissa exponent atFoot =>
    signed negative <|
      if mantissa = 0 then ['0'] else (shortest mantissa exponent atFoot).positional

/-- The text with a fixed number of places. The exact value is rounded to the nearest such number, a half to the even
one. -/
def fixedText (places : Nat) (number : Float) : String :=
  match Binary.ofBits number.toBits with
  | .notANumber => "NaN"
  | .infinite negative => nonFinite negative
  | .finite negative mantissa exponent _ =>
    let value := ((Ratio.mk mantissa 1).scale 2 exponent).scale 10 places
    signed negative (withPoint (Nat.toDigits 10 value.roundHalfEven) places)

end BitSerial.Decimal
