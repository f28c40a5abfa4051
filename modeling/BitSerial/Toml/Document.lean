import BitSerial.Toml.Scalar

/-! # TOML documents

A document is read line by line into statements, and the statements are put together into one table. Reading stops at
the first thing that is wrong; what it is does not matter here, because a document that cannot be read is not used.

Values nest less than eighty deep, and a key has less than eighty parts.
-/

namespace BitSerial.Toml

/-- The depth that values do not reach, and the number of parts that keys do not reach. -/
def nestingLimit : Nat := 80

/-- Drops blanks within a line. -/
def dropBlanks (text : List Char) : List Char := text.dropWhile isBlank

/-- Drops a comment up to the end of its line, if one starts here. -/
def dropComment? (text : List Char) : Option (List Char) :=
  match text with
  | '#' :: rest =>
    let rest := rest.dropWhile isText
    if rest.isEmpty || (newline? rest).isSome then some rest else none
  | text => some text

/-- Drops the end of a line: blanks, a comment, and the line end or the end of the text. -/
def endOfLine? (text : List Char) : Option (List Char) := do
  match ← dropComment? (dropBlanks text) with
  | [] => some []
  | rest => newline? rest

/-- Drops blanks, comments and line ends between the items of an array. A comment goes on to the end of its line. -/
def dropSpace? (commented : Bool) : List Char → Option (List Char)
  | '\n' :: rest => dropSpace? false rest
  | '\r' :: '\n' :: rest => dropSpace? false rest
  | char :: rest =>
    if commented then
      if isText char then dropSpace? true rest else none
    else if isBlank char then dropSpace? false rest
    else if char = '#' then dropSpace? true rest
    else some (char :: rest)
  | [] => some []

/-- A character of a key without quotes. -/
def isKey (char : Char) : Bool := char.isAlphanum || char = '_' || char = '-'

/-- Reads one part of a key, with the blanks around it. -/
def keyPart? (text : List Char) : Option (String × List Char) := do
  let text := dropBlanks text
  let (part, rest) ← match text.head? with
    | some '"' => lineString? text
    | some '\'' => lineString? text
    | _ => some (text.takeWhile isKey, text.dropWhile isKey)
  guard (!part.isEmpty || text.head? = some '"' || text.head? = some '\'')
  return (String.ofList part, dropBlanks rest)

/-- Reads the parts of a key, with points between them. -/
def keyParts? : (steps : Nat) → Parser (List String)
  | 0, _ => none
  | steps + 1, text => do
    let (part, rest) ← keyPart? text
    match rest with
    | '.' :: rest =>
      let (parts, rest) ← keyParts? steps rest
      return (part :: parts, rest)
    | rest => return ([part], rest)

/-- Reads a key. -/
def key? (text : List Char) : Option (List String × List Char) := do
  let (parts, rest) ← keyParts? nestingLimit text
  guard (parts.length < nestingLimit)
  return (parts, rest)

mutual

/-- Reads a value. The depth says how many more brackets may be open. -/
def value? : (steps depth : Nat) → Parser Value
  | 0, _, _ => none
  | steps + 1, depth, text =>
    match text with
    | '"' :: _ => (string? text).map fun (chars, rest) => (.string (String.ofList chars), rest)
    | '\'' :: _ => (string? text).map fun (chars, rest) => (.string (String.ofList chars), rest)
    | '[' :: rest =>
      match depth with
      | 0 => none
      | depth + 1 => (items? steps depth rest).map fun (items, rest) => (.array items, rest)
    | '{' :: rest =>
      match depth with
      | 0 => none
      | depth + 1 => do
        let (pairs, rest) ←
          match dropBlanks rest with
          | '}' :: rest => some ([], rest)
          | rest => pairs? steps depth rest
        return (.table .inline (← Entries.insertAll? [] pairs), rest)
    | text =>
      let (word, rest) := word text
      (wordValue? word).map (·, rest)

/-- Reads the items of an array up to its end. -/
def items? : (steps depth : Nat) → Parser (List Value)
  | 0, _, _ => none
  | steps + 1, depth, text => do
    match ← dropSpace? false text with
    | ']' :: rest => return ([], rest)
    | text =>
      let (value, rest) ← value? steps depth text
      match ← dropSpace? false rest with
      | ']' :: rest => return ([value], rest)
      | ',' :: rest =>
        let (values, rest) ← items? steps depth rest
        return (value :: values, rest)
      | _ => none

/-- Reads the pairs of a table in braces up to its end. There is no comma after the last. -/
def pairs? : (steps depth : Nat) → Parser (List (List String × Value))
  | 0, _, _ => none
  | steps + 1, depth, text => do
    let (path, rest) ← key? text
    match rest with
    | '=' :: rest =>
      let (value, rest) ← value? steps depth (dropBlanks rest)
      match dropBlanks rest with
      | '}' :: rest => return ([(path, value)], rest)
      | ',' :: rest =>
        let (pairs, rest) ← pairs? steps depth rest
        return ((path, value) :: pairs, rest)
      | _ => none
    | _ => none

end

/-- One line of a document, or one value over several lines. -/
inductive Statement where
  | pair (path : List String) (value : Value)
  /-- The header of a table. -/
  | header (path : List String)
  /-- The header of one more table of several. -/
  | repeatedHeader (path : List String)

/-- Reads a pair with the end of its line. -/
def pair? (steps : Nat) (text : List Char) : Option (Statement × List Char) := do
  let (path, rest) ← key? text
  match rest with
  | '=' :: rest =>
    let (value, rest) ← value? steps (nestingLimit - 1) (dropBlanks rest)
    return (.pair path value, ← endOfLine? rest)
  | _ => none

/-- Reads a header with the end of its line, from the character after its first bracket. -/
def header? (text : List Char) : Option (Statement × List Char) :=
  match text with
  | '[' :: text => do
    match ← key? text with
    | (path, ']' :: ']' :: rest) => return (.repeatedHeader path, ← endOfLine? rest)
    | _ => none
  | text => do
    match ← key? text with
    | (path, ']' :: rest) => return (.header path, ← endOfLine? rest)
    | _ => none

/-- Reads the statements of a document. Every statement takes a character, and a value at most two steps for each of its
characters, so twice the length is enough. -/
def statements? : (steps : Nat) → List Char → Option (List Statement)
  | 0, _ => none
  | steps + 1, text => do
    let text := dropBlanks text
    match text with
    | [] => return []
    | '#' :: _ => statements? steps (← endOfLine? text)
    | '\n' :: _ => statements? steps (← newline? text)
    | '\r' :: _ => statements? steps (← newline? text)
    | '[' :: rest =>
      let (statement, rest) ← header? rest
      return statement :: (← statements? steps rest)
    | text =>
      let (statement, rest) ← pair? steps text
      return statement :: (← statements? steps rest)

/-- The pairs at the start of a list of statements, up to the next header. -/
def leadingPairs : List Statement → List (List String × Value)
  | .pair path value :: rest => (path, value) :: leadingPairs rest
  | _ => []

/-- Puts statements into a table. A header takes the pairs after it with it; a pair that follows a header is skipped
when its turn comes. -/
def assemble? : List Statement → Entries → Option Entries
  | [], root => some root
  | .pair _ _ :: rest, root => assemble? rest root
  | .header path :: rest, root => do
    let root ← root.update? (Entries.openTable? (path.getLast?.getD "") (leadingPairs rest)) path.dropLast
    assemble? rest root
  | .repeatedHeader path :: rest, root => do
    let root ← root.update? (Entries.appendTable? (path.getLast?.getD "") (leadingPairs rest)) path.dropLast
    assemble? rest root

/-- Drops the mark that may stand at the very start of a text. -/
def dropMark : List Char → List Char
  | '\ufeff' :: text => text
  | text => text

/-- Reads a document. -/
def document? (text : String) : Option Entries := do
  let chars := dropMark text.toList
  let statements ← statements? (2 * chars.length + 2) chars
  assemble? statements (← Entries.insertAll? [] (leadingPairs statements))

end BitSerial.Toml
