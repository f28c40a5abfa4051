import BitSerial.Decimal.Reading
import BitSerial.Toml.Value

/-! # TOML scalars

Strings, numbers, dates and times. A string is read from the characters after its opening quote, and the rest is handed
back. Everything else is a word: the longest run of characters that numbers, dates and names are made of. A word is
read whole or not at all.
-/

namespace BitSerial.Toml

/-- Reads a prefix of some text. -/
abbrev Parser (α : Type) := List Char → Option (α × List Char)

/-- A blank within a line. -/
def isBlank (char : Char) : Bool := char = ' ' || char = '\t'

/-- A character that may stand in a text: a tab, or one that is no ASCII control character. -/
def isText (char : Char) : Bool := char = '\t' || 0x20 ≤ char.toNat && char ≠ '\x7f'

/-- Drops a line end. -/
def newline? : List Char → Option (List Char)
  | '\n' :: rest => some rest
  | '\r' :: '\n' :: rest => some rest
  | _ => none

/-- The character with a number in hexadecimal digits, if there is one. -/
def scalar? (digits : List Char) : Option Char := do
  let value ← digits.foldlM (fun value digit => do
    let digit ← if digit.isDigit then some (Decimal.digitValue digit)
      else if 'a' ≤ digit ∧ digit ≤ 'f' then some (digit.toNat - 'a'.toNat + 10)
      else if 'A' ≤ digit ∧ digit ≤ 'F' then some (digit.toNat - 'A'.toNat + 10)
      else none
    return value * 16 + digit) 0
  if value < 0xd800 ∨ 0xdfff < value ∧ value < 0x110000 then some (Char.ofNat value) else none

/-- The character that a letter after a backslash stands for. -/
def escape? : Char → Option Char
  | 'b' => some '\x08'
  | 't' => some '\t'
  | 'n' => some '\n'
  | 'f' => some '\x0c'
  | 'r' => some '\r'
  | '"' => some '"'
  | '\\' => some '\\'
  | _ => none

/-- Reads a string in double quotes. -/
def basicString? : Parser (List Char)
  | '"' :: rest => some ([], rest)
  | '\\' :: 'u' :: a :: b :: c :: d :: rest => do
    let char ← scalar? [a, b, c, d]
    let (chars, rest) ← basicString? rest
    return (char :: chars, rest)
  | '\\' :: 'U' :: a :: b :: c :: d :: e :: f :: g :: h :: rest => do
    let char ← scalar? [a, b, c, d, e, f, g, h]
    let (chars, rest) ← basicString? rest
    return (char :: chars, rest)
  | '\\' :: letter :: rest => do
    let char ← escape? letter
    let (chars, rest) ← basicString? rest
    return (char :: chars, rest)
  | char :: rest => do
    guard (isText char && char ≠ '\\')
    let (chars, rest) ← basicString? rest
    return (char :: chars, rest)
  | [] => none

/-- Whether nothing but blanks is left of a line that has an end. -/
def endsLine (text : List Char) : Bool := (newline? (text.dropWhile isBlank)).isSome

/-- Reads a string in three double quotes. Up to two quotes may stand before the closing ones. A backslash at the end of
a line starts the skipping of all blanks and line ends up to the next text. -/
def basicLines? (skipping : Bool) : Parser (List Char)
  | '"' :: '"' :: '"' :: '"' :: '"' :: rest => some (['"', '"'], rest)
  | '"' :: '"' :: '"' :: '"' :: rest => some (['"'], rest)
  | '"' :: '"' :: '"' :: rest => some ([], rest)
  | '\\' :: 'u' :: a :: b :: c :: d :: rest => do
    let char ← scalar? [a, b, c, d]
    let (chars, rest) ← basicLines? false rest
    return (char :: chars, rest)
  | '\\' :: 'U' :: a :: b :: c :: d :: e :: f :: g :: h :: rest => do
    let char ← scalar? [a, b, c, d, e, f, g, h]
    let (chars, rest) ← basicLines? false rest
    return (char :: chars, rest)
  | '\\' :: letter :: rest =>
    if endsLine (letter :: rest) then basicLines? true (letter :: rest)
    else do
      let char ← escape? letter
      let (chars, rest) ← basicLines? false rest
      return (char :: chars, rest)
  | '\r' :: '\n' :: rest =>
    if skipping then basicLines? true rest
    else do
      let (chars, rest) ← basicLines? false rest
      return ('\n' :: chars, rest)
  | char :: rest =>
    if skipping && (isBlank char || char = '\n') then basicLines? true rest
    else do
      guard ((isText char || char = '\n') && char ≠ '\\')
      let (chars, rest) ← basicLines? false rest
      return (char :: chars, rest)
  | [] => none

/-- Reads a string in single quotes. -/
def literalString? : Parser (List Char)
  | '\'' :: rest => some ([], rest)
  | char :: rest => do
    guard (isText char)
    let (chars, rest) ← literalString? rest
    return (char :: chars, rest)
  | [] => none

/-- Reads a string in three single quotes. Up to two quotes may stand before the closing ones. -/
def literalLines? : Parser (List Char)
  | '\'' :: '\'' :: '\'' :: '\'' :: '\'' :: rest => some (['\'', '\''], rest)
  | '\'' :: '\'' :: '\'' :: '\'' :: rest => some (['\''], rest)
  | '\'' :: '\'' :: '\'' :: rest => some ([], rest)
  | '\r' :: '\n' :: rest => do
    let (chars, rest) ← literalLines? rest
    return ('\n' :: chars, rest)
  | char :: rest => do
    guard (isText char || char = '\n')
    let (chars, rest) ← literalLines? rest
    return (char :: chars, rest)
  | [] => none

/-- Reads a string on one line, from its opening quote. -/
def lineString? : Parser (List Char)
  | '"' :: rest => basicString? rest
  | '\'' :: rest => literalString? rest
  | _ => none

/-- Drops a line end right after the opening quotes of a string of several lines. -/
def dropNewline (text : List Char) : List Char := (newline? text).getD text

/-- Reads a string of any kind, from its opening quote. -/
def string? : Parser (List Char)
  | '"' :: '"' :: '"' :: rest => basicLines? false (dropNewline rest)
  | '\'' :: '\'' :: '\'' :: rest => literalLines? (dropNewline rest)
  | text => lineString? text

/-- Digits with single underscores between them, and the digits alone. -/
def underscored? (isDigit : Char → Bool) : List Char → Option (List Char)
  | [] => none
  | [digit] => if isDigit digit then some [digit] else none
  | digit :: '_' :: rest => if isDigit digit then (underscored? isDigit rest).map (digit :: ·) else none
  | digit :: rest => if isDigit digit then (underscored? isDigit rest).map (digit :: ·) else none

/-- The digits of a decimal integer without its sign. Only zero itself starts with a zero. -/
def decimalDigits? (word : List Char) : Option (List Char) := do
  guard (word.head? ≠ some '0' ∨ word = ['0'])
  underscored? Char.isDigit word

/-- A sign and the rest of a word. -/
def splitSign : List Char → Bool × List Char
  | '-' :: word => (true, word)
  | '+' :: word => (false, word)
  | word => (false, word)

/-- The value of digits in a base. -/
def baseValue (base : Nat) (digits : List Char) : Nat :=
  digits.foldl (fun value digit =>
    let digit := if digit.isDigit then Decimal.digitValue digit else digit.toLower.toNat - 'a'.toNat + 10
    value * base + digit) 0

/-- A hexadecimal digit. -/
def isHexDigit (char : Char) : Bool :=
  char.isDigit || 'a' ≤ char && char ≤ 'f' || 'A' ≤ char && char ≤ 'F'

/-- Reads an integer. It is a signed 64-bit number. -/
def integer? (word : List Char) : Option Int := do
  let value : Int ← match word with
    | '0' :: 'x' :: digits => (underscored? isHexDigit digits).map (Int.ofNat <| baseValue 16 ·)
    | '0' :: 'o' :: digits =>
      (underscored? (fun char => '0' ≤ char && char ≤ '7') digits).map (Int.ofNat <| baseValue 8 ·)
    | '0' :: 'b' :: digits =>
      (underscored? (fun char => char = '0' || char = '1') digits).map (Int.ofNat <| baseValue 2 ·)
    | word =>
      let (negative, word) := splitSign word
      (decimalDigits? word).map fun digits =>
        let value := Int.ofNat (Decimal.digitsValue digits)
        if negative then -value else value
  guard (-0x8000000000000000 ≤ value ∧ value < 0x8000000000000000)
  return value

/-- The exponent of a floating point number, with its sign. -/
def exponent? (word : List Char) : Option Int := do
  let (negative, word) := splitSign word
  let value := Int.ofNat (Decimal.digitsValue (← underscored? Char.isDigit word))
  return if negative then -value else value

/-- The part of a word before the first character of a kind, and the part after it if there is one. -/
def splitAt (isMark : Char → Bool) (word : List Char) : List Char × Option (List Char) :=
  (word.takeWhile (!isMark ·), (word.dropWhile (!isMark ·)).tail?)

/-- Reads a floating point number. One that is too large for a finite number is refused if it is positive. -/
def float? (word : List Char) : Option Float := do
  let (negative, word) := splitSign word
  let signed (value : Float) : Float := if negative then -value else value
  if word = ['i', 'n', 'f'] then return signed (1.0 / 0.0)
  if word = ['n', 'a', 'n'] then return signed (0.0 / 0.0)
  let (mantissa, power) := splitAt (fun char => char = 'e' || char = 'E') word
  let (whole, places) := splitAt (· = '.') mantissa
  guard (power.isSome || places.isSome)
  let whole ← decimalDigits? whole
  let places ← match places with
    | none => some []
    | some places => underscored? Char.isDigit places
  let power ← match power with
    | none => some 0
    | some power => exponent? power
  let value := signed (Decimal.nearest (Decimal.digitsValue (whole ++ places)) (power - Int.ofNat places.length))
  guard (!(value == 1.0 / 0.0))
  return value

/-- A number of two digits up to a limit. -/
def twoDigits? (limit : Nat) (high low : Char) : Option Nat := do
  guard (high.isDigit && low.isDigit)
  let value := Decimal.digitsValue [high, low]
  guard (value ≤ limit)
  return value

/-- The days of a month. -/
def monthDays (year month : Nat) : Nat :=
  if month = 2 then
    if year % 4 = 0 ∧ (year % 100 ≠ 0 ∨ year % 400 = 0) then 29 else 28
  else if month = 4 ∨ month = 6 ∨ month = 9 ∨ month = 11 then 30
  else 31

/-- Whether a word starts with a date, and the rest after it. -/
def date? : List Char → Option (List Char)
  | y₁ :: y₂ :: y₃ :: y₄ :: '-' :: m₁ :: m₂ :: '-' :: d₁ :: d₂ :: rest => do
    guard ([y₁, y₂, y₃, y₄].all Char.isDigit)
    let month ← twoDigits? 12 m₁ m₂
    let day ← twoDigits? 31 d₁ d₂
    guard (1 ≤ month ∧ 1 ≤ day ∧ day ≤ monthDays (Decimal.digitsValue [y₁, y₂, y₃, y₄]) month)
    return rest
  | _ => none

/-- Whether a word starts with a time of day, and the rest after it. A minute may have a leap second. -/
def time? : List Char → Option (List Char)
  | h₁ :: h₂ :: ':' :: m₁ :: m₂ :: ':' :: s₁ :: s₂ :: rest => do
    let _ ← twoDigits? 23 h₁ h₂
    let _ ← twoDigits? 59 m₁ m₂
    let _ ← twoDigits? 60 s₁ s₂
    match rest with
    | '.' :: digit :: rest =>
      guard digit.isDigit
      return rest.dropWhile Char.isDigit
    | '.' :: [] => none
    | rest => return rest
  | _ => none

/-- Whether a word is an offset from universal time, or nothing. -/
def isOffset : List Char → Bool
  | [] => true
  | ['Z'] => true
  | ['z'] => true
  | [sign, h₁, h₂, ':', m₁, m₂] =>
    (sign = '+' || sign = '-') && (twoDigits? 23 h₁ h₂).isSome && (twoDigits? 59 m₁ m₂).isSome
  | _ => false

/-- Whether a word is a time of day, with or without an offset. -/
def isOffsetTime (word : List Char) : Bool := ((time? word).map isOffset).getD false

/-- Whether a word is a date, a time of day, or a date and a time of day with or without an offset. -/
def isDateTime (word : List Char) : Bool :=
  match date? word with
  | some [] => true
  | some (mark :: time) => (mark = 'T' || mark = 't' || mark = ' ') && isOffsetTime time
  | none => time? word = some []

/-- A character of a word. -/
def isWord (char : Char) : Bool := char.isAlphanum || ['_', '-', '+', '.', ':'].contains char

/-- Reads a word. A date takes a time of day after a blank with it. -/
def word (text : List Char) : List Char × List Char :=
  let first := text.takeWhile isWord
  let rest := text.dropWhile isWord
  match rest with
  | ' ' :: more =>
    let second := more.takeWhile isWord
    if date? first = some [] && isOffsetTime second then (first ++ ' ' :: second, more.dropWhile isWord)
    else (first, rest)
  | _ => (first, rest)

/-- The value of a word: a truth value, a date or time, a floating point number or an integer. -/
def wordValue? (word : List Char) : Option Value :=
  if word = "true".toList then some (.boolean true)
  else if word = "false".toList then some (.boolean false)
  else if isDateTime word then some (.dateTime (String.ofList word))
  else
    match integer? word with
    | some value => some (.integer value)
    | none => (float? word).map .float

end BitSerial.Toml
