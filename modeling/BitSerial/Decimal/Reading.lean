import BitSerial.Decimal.Binary

/-! # Reading decimals

Texts of whole numbers and of floating point numbers, as settings and arguments give them. Digits are ASCII digits.
-/

namespace BitSerial.Decimal

/-- The value of a digit. -/
def digitValue (digit : Char) : Nat := digit.toNat - '0'.toNat

/-- The value of a list of digits. -/
def digitsValue (digits : List Char) : Nat :=
  digits.foldl (fun value digit => value * 10 + digitValue digit) 0

/-- The number of decimal digits of a positive number, estimated from its bits. A bit is worth 0.30103 digits, and as
long as there are less than a hundred million bits the estimate is off by one at most. -/
def digitEstimate (value : Nat) : Nat := value.log2 * 30103 / 100000 + 1

/-- The floating point number nearest to `digits · 10 ^ exponent`. Numbers far out of range are not worked out. -/
def nearest (digits : Nat) (exponent : Int) : Float :=
  let highest := Int.ofNat (digitEstimate digits) + exponent
  if digits = 0 ∨ highest < -330 then 0.0
  else if 310 < highest then 1.0 / 0.0
  else if 0 ≤ exponent then Float.ofScientific digits false exponent.toNat
  else Float.ofScientific digits true (-exponent).toNat

/-- Why a text is not a whole number in range. -/
inductive WholeDefect where
  | empty
  | invalidDigit
  | tooLarge
  deriving DecidableEq, Repr

/-- The wording of a defect of a whole number. -/
def WholeDefect.message : WholeDefect → String
  | empty => "cannot parse integer from empty string"
  | invalidDigit => "invalid digit found in string"
  | tooLarge => "number too large to fit in target type"

/-- Reads digits one by one. The first thing wrong decides: a character that is no digit, or a value that has reached
the limit. -/
def wholeFrom (limit : Nat) : (value : Nat) → List Char → Except WholeDefect Nat
  | value, [] => .ok value
  | value, digit :: rest =>
    if digit.isDigit then
      let value := value * 10 + digitValue digit
      if value < limit then wholeFrom limit value rest else .error .tooLarge
    else
      .error .invalidDigit

/-- Reads a whole number below a limit. A plus sign may stand before the digits. -/
def whole (limit : Nat) (text : String) : Except WholeDefect Nat :=
  match text.toList with
  | [] => .error .empty
  | ['+'] => .error .invalidDigit
  | '+' :: digits => wholeFrom limit 0 digits
  | digits => wholeFrom limit 0 digits

/-- Reads an exponent: an optional sign and at least one digit. -/
def exponent? (text : List Char) : Option Int :=
  let (negative, digits) :=
    match text with
    | '-' :: digits => (true, digits)
    | '+' :: digits => (false, digits)
    | digits => (false, digits)
  if digits.isEmpty || !digits.all (·.isDigit) then none
  else
    let value := Int.ofNat (digitsValue digits)
    some (if negative then -value else value)

/-- Reads a floating point number without sign: digits with an optional point, at least one digit in all, and an
optional exponent. -/
def magnitude? (text : List Char) : Option Float := do
  let wholeDigits := text.takeWhile (·.isDigit)
  let text := text.dropWhile (·.isDigit)
  let (places, text) :=
    match text with
    | '.' :: text => (text.takeWhile Char.isDigit, text.dropWhile Char.isDigit)
    | text => ([], text)
  guard (!(wholeDigits.isEmpty && places.isEmpty))
  let exponent ←
    match text with
    | [] => some 0
    | 'e' :: text => exponent? text
    | 'E' :: text => exponent? text
    | _ => none
  return nearest (digitsValue (wholeDigits ++ places)) (exponent - Int.ofNat places.length)

/-- Reads a floating point number. The words for infinity and for no number may be written in any case. -/
def float? (text : String) : Option Float := do
  let (negative, text) :=
    match text.toList with
    | '-' :: text => (true, text)
    | '+' :: text => (false, text)
    | text => (false, text)
  let word := String.ofList (text.map Char.toLower)
  let magnitude ←
    if word = "inf" ∨ word = "infinity" then some (1.0 / 0.0)
    else if word = "nan" then some (0.0 / 0.0)
    else magnitude? text
  return if negative then -magnitude else magnitude

end BitSerial.Decimal
