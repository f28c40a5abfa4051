/-! # TOML values

The values of a TOML document. A table remembers how it came to be, because that decides what later lines may still
add to it.
-/

namespace BitSerial.Toml

/-- How a table came to be. -/
inductive TableOrigin where
  /-- By a header of its own. -/
  | header
  /-- As the parent of a table with a header. -/
  | implied
  /-- By a dotted key. -/
  | dotted
  /-- Between braces. Nothing can be added to it. -/
  | inline
  deriving DecidableEq, Repr

/-- A value. The entries of a table are in the order of their first mention, each key once. -/
inductive Value where
  | string (text : String)
  | integer (value : Int)
  | float (value : Float)
  | boolean (value : Bool)
  /-- A date, a time, or both. -/
  | dateTime (text : String)
  | array (items : List Value)
  | table (origin : TableOrigin) (entries : List (String × Value))
  /-- Tables with a repeated header. -/
  | tables (items : List (List (String × Value)))

/-- The entries of a table. -/
abbrev Entries := List (String × Value)

namespace Entries

/-- The value of a key. -/
def get? (entries : Entries) (key : String) : Option Value := entries.lookup key

/-- Gives a key a value, in place of the one it has or after all others. -/
def set (entries : Entries) (key : String) (value : Value) : Entries :=
  match entries with
  | [] => [(key, value)]
  | (first, old) :: rest => if first = key then (key, value) :: rest else (first, old) :: set rest key value

/-- Adds a key that is not there yet. -/
def add? (entries : Entries) (key : String) (value : Value) : Option Entries :=
  match entries.get? key with
  | none => some (entries.set key value)
  | some _ => none

/-- Puts a value at a dotted key. Tables on the way are made by the dotted key itself, or they were made by an earlier
dotted key or as parents of tables with headers; only a table made by a dotted key takes the value itself. -/
def insert? (value : Value) : List String → Entries → Option Entries
  | [], _ => none
  | [key], entries => entries.add? key value
  | key :: next :: path, entries => do
    match entries.get? key with
    | none =>
      let inner ← insert? value (next :: path) []
      return entries.set key (.table .dotted inner)
    | some (.table origin inner) =>
      guard (origin = .dotted ∨ origin = .implied ∧ path ≠ [])
      let inner ← insert? value (next :: path) inner
      return entries.set key (.table origin inner)
    | some (.tables items) =>
      guard (path ≠ [])
      let inner ← insert? value (next :: path) (items.getLast?.getD [])
      return entries.set key (.tables (items.dropLast ++ [inner]))
    | some _ => none

/-- Puts the pairs of one table into it, in order. -/
def insertAll? (entries : Entries) : List (List String × Value) → Option Entries
  | [] => some entries
  | (path, value) :: rest => do insertAll? (← entries.insert? value path) rest

/-- Changes the table at the path of a header. Tables that are missing on the way are implied; of tables with a repeated
header, the path means the last. -/
def update? (change : Entries → Option Entries) : List String → Entries → Option Entries
  | [], entries => change entries
  | key :: path, entries => do
    match entries.get? key with
    | none =>
      let inner ← update? change path []
      return entries.set key (.table .implied inner)
    | some (.table origin inner) =>
      guard (origin ≠ .inline)
      let inner ← update? change path inner
      return entries.set key (.table origin inner)
    | some (.tables items) =>
      let inner ← update? change path (items.getLast?.getD [])
      return entries.set key (.tables (items.dropLast ++ [inner]))
    | some _ => none

/-- Opens the table of a header and puts pairs into it. The table is new, or it was only implied so far. -/
def openTable? (key : String) (pairs : List (List String × Value)) (parent : Entries) : Option Entries := do
  let entries : Entries ← match parent.get? key with
    | none => some []
    | some (.table .implied entries) => some entries
    | some _ => none
  return parent.set key (.table .header (← entries.insertAll? pairs))

/-- Opens one more table of a repeated header and puts pairs into it. -/
def appendTable? (key : String) (pairs : List (List String × Value)) (parent : Entries) : Option Entries := do
  let items : List Entries ← match parent.get? key with
    | none => some []
    | some (.tables items) => some items
    | some _ => none
  return parent.set key (.tables (items ++ [← Entries.insertAll? [] pairs]))

end Entries

end BitSerial.Toml
