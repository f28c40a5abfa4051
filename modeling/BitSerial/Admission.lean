import BitSerial.Refusal

/-! # Admission

Which arrays can be scheduled against at all, and which problems an array takes. Checks come in a fixed order, so a
request with several defects is turned down for the first of them.
-/

namespace BitSerial

namespace Failure

/-- Asks a condition of the shapes. -/
def demandShape (condition : Prop) [Decidable condition] (defect : ShapeDefect) : Except Failure Unit :=
  if condition then .ok () else shape defect

/-- Asks a condition of the array. -/
def demandCapability (condition : Prop) [Decidable condition] (defect : CapabilityDefect) :
    Except Failure Unit :=
  if condition then .ok () else capability defect

end Failure

open Failure

/-- Checks that the fields of a geometry agree with each other. -/
def Geometry.check (geometry : Geometry) : Except Failure Unit := do
  demandCapability (geometry.lhsDim ≠ 0 ∧ geometry.rhsDim ≠ 0 ∧ geometry.commonDim ≠ 0)
    (.emptyArray geometry.lhsDim geometry.commonDim geometry.rhsDim)
  demandCapability (geometry.readWidth ≠ 0 ∧ geometry.writeWidth ≠ 0) .emptyChannel
  demandCapability (geometry.readWidth ≤ geometry.commonDim ∧ geometry.commonDim % geometry.readWidth = 0)
    (.unevenChannel geometry.commonDim geometry.readWidth)
  demandCapability (geometry.commonDim % 8 = 0 ∧ geometry.readWidth % 8 = 0 ∧ geometry.writeWidth % 8 = 0)
    .partialBytes
  demandCapability (geometry.queueEntries ≠ 0) .noQueue

/-- Checks one operand against the array. A dimension of zero is a fault, because the check divides by it. -/
def OperandShape.check (shape : OperandShape) (operand : Operand) (geometry : Geometry) :
    Except Failure Unit := do
  demandShape (shape.bits ≠ 0) (.noPlanes operand)
  demandShape (shape.rows ≠ 0 ∧ shape.cols ≠ 0) (.empty operand shape.rows shape.cols)
  demandShape (shape.rows ≤ shape.paddedRows ∧ shape.cols ≤ shape.paddedCols) (.shortPadding operand shape)
  let looseRows ← Word64.mod shape.paddedRows (geometry.dim operand)
  demandShape (looseRows = 0) (.unevenArrayRows operand shape.paddedRows (geometry.dim operand))
  let looseCols ← Word64.mod shape.paddedCols geometry.commonDim
  demandShape (looseCols = 0) (.unevenArrayCols operand shape.paddedCols geometry.commonDim)
  demandShape (shape.paddedCols % wordBits = 0) (.partialWords operand shape.paddedCols)

/-- Checks both operands against the array and against each other. -/
def Gemm.check (gemm : Gemm) (geometry : Geometry) : Except Failure Unit := do
  gemm.lhs.check .lhs geometry
  gemm.rhs.check .rhs geometry
  demandShape (gemm.lhs.paddedCols = gemm.rhs.paddedCols ∧ gemm.lhs.cols = gemm.rhs.cols)
    (.unequalDepth gemm.lhs gemm.rhs)

end BitSerial
