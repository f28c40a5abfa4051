/-! # Tile indices

The position of a tile in the iteration space, and the textual form of addresses in messages.
-/

namespace BitSerial

/-- A position in the space of left row tiles, right row tiles and tiles of the common dimension. -/
structure TileIndex where
  lhs : Nat
  rhs : Nat
  common : Nat
  deriving DecidableEq, Repr

/-- An index as messages write it. -/
def TileIndex.describe (index : TileIndex) : String :=
  s!"({index.lhs}, {index.rhs}, {index.common})"

/-- A number in lower-case hexadecimal, with leading zeros up to a least number of digits. -/
def hexadecimal (leastDigits value : Nat) : String :=
  let digits := Nat.toDigits 16 value
  String.ofList (List.replicate (leastDigits - digits.length) '0' ++ digits)

end BitSerial
