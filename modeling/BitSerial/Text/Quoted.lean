import BitSerial.Text.Hidden

/-! # Quoted text

Text in double quotes as messages show it. Quotes, backslashes and characters that cannot be shown are escaped.
-/

namespace BitSerial.Text

/-- A character by its number. -/
def numbered (char : Char) : List Char :=
  ['\\', 'u', '\x7b'] ++ Nat.toDigits 16 char.toNat ++ ['\x7d']

/-- A character within quotes. -/
def escaped (char : Char) : List Char :=
  if char = '"' then ['\\', '"']
  else if char = '\\' then ['\\', '\\']
  else if char = '\n' then ['\\', 'n']
  else if char = '\r' then ['\\', 'r']
  else if char = '\t' then ['\\', 't']
  else if char = '\x00' then ['\\', '0']
  else if char.toNat < 0x20 ∨ char = '\x7f' then numbered char
  else if 0x80 ≤ char.toNat ∧ isHidden char then numbered char
  else [char]

/-- A text within quotes. -/
def quoted (text : String) : String :=
  String.ofList ('"' :: text.toList.flatMap escaped ++ ['"'])

end BitSerial.Text
