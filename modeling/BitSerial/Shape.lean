import BitSerial.Geometry

/-! # Operand shapes

A packed operand is stored bit plane by bit plane, and a plane row by row. A row is `paddedCols` bits long, packed
into 64-bit words. Rows and columns are padded so that the operand divides evenly among the rows of the array and
the bits that it takes at once.

A `Gemm` is a pair of shapes. Both operands run along the common dimension, so the product has one row for each row
of the left operand and one column for each row of the right one.
-/

namespace BitSerial

/-- The shape of one packed operand. -/
structure OperandShape where
  rows : Nat
  /-- Rows after padding to the array dimension. -/
  paddedRows : Nat
  /-- Columns, along the common dimension. -/
  cols : Nat
  paddedCols : Nat
  /-- Bit planes. -/
  bits : Nat
  /-- Whether the highest plane counts negatively. -/
  signed : Bool
  deriving DecidableEq, Repr

namespace OperandShape

/-- A shape whose rows and columns are rounded up to given units. -/
def padded (rows cols bits : Nat) (signed : Bool) (rowUnit colUnit : Nat) : Except Fault OperandShape := do
  let paddedRows ← roundUp rows rowUnit
  let paddedCols ← roundUp cols colUnit
  return { rows, paddedRows, cols, paddedCols, bits, signed }

/-- Packed words of one row. -/
def rowWords (shape : OperandShape) : Nat := shape.paddedCols / wordBits

/-- Bytes of one row. -/
def rowBytes (shape : OperandShape) : Nat := shape.paddedCols / 8

/-- Packed words of one bit plane. -/
def planeWords (shape : OperandShape) : Except Fault Nat := Word64.mul shape.paddedRows shape.rowWords

/-- Bytes of one bit plane. -/
def planeBytes (shape : OperandShape) : Except Fault Nat := do
  Word64.mul (← shape.planeWords) wordBytes

/-- Packed words of the whole operand. -/
def words (shape : OperandShape) : Except Fault Nat := do
  Word64.mul (← shape.planeWords) shape.bits

/-- Bytes of the whole operand. -/
def bytes (shape : OperandShape) : Except Fault Nat := do
  Word64.mul (← shape.words) wordBytes

/-- The bytes that a packed operand of this shape exactly needs, as a number without bound. -/
def exactBytes (shape : OperandShape) : Nat :=
  shape.paddedRows * shape.rowWords * shape.bits * wordBytes

/-- The fields of a shape as a message quotes them. -/
def describe (shape : OperandShape) : String :=
  "OperandShape \x7b rows: " ++ toString shape.rows ++ ", rows_aligned: " ++ toString shape.paddedRows ++
  ", cols: " ++ toString shape.cols ++ ", cols_aligned: " ++ toString shape.paddedCols ++
  ", bits: " ++ toString shape.bits ++ ", signed: " ++ toString shape.signed ++ " \x7d"

end OperandShape

/-- The shapes of the two operands of a product. -/
structure Gemm where
  lhs : OperandShape
  rhs : OperandShape
  deriving DecidableEq, Repr

namespace Gemm

/-- The shape of one operand. -/
def operand (gemm : Gemm) : Operand → OperandShape
  | .lhs => gemm.lhs
  | .rhs => gemm.rhs

/-- What rows and bits of a problem have to say before padding. -/
structure Request where
  lhsRows : Nat
  depth : Nat
  rhsRows : Nat
  lhsBits : Nat
  rhsBits : Nat
  lhsSigned : Bool
  rhsSigned : Bool
  deriving DecidableEq, Repr

/-- Pads a problem for an array. Rows are rounded up to the array dimension, and the common dimension to whole
array words that are also whole aligned addresses, so that every row starts at an aligned address. -/
def forGeometry (geometry : Geometry) (request : Request) : Except Fault Gemm := do
  let colUnit ← commonMultiple (max geometry.commonDim 1) (addressAlign * 8)
  let lhs ← OperandShape.padded request.lhsRows request.depth request.lhsBits request.lhsSigned
    (max geometry.lhsDim 1) colUnit
  let rhs ← OperandShape.padded request.rhsRows request.depth request.rhsBits request.rhsSigned
    (max geometry.rhsDim 1) colUnit
  return { lhs, rhs }

/-- Elements of the padded result. -/
def resultElements (gemm : Gemm) : Except Fault Nat := Word64.mul gemm.lhs.paddedRows gemm.rhs.paddedRows

/-- Bytes of the padded result. -/
def resultBytes (gemm : Gemm) : Except Fault Nat := do
  Word64.mul (← gemm.resultElements) elementBytes

end Gemm

end BitSerial
