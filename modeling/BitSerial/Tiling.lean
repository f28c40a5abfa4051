import BitSerial.Admission

/-! # Tilings

An operand is cut at three levels. A stripe fills the array once: as many rows as the array dimension, as many bits
as the array takes at once. A band is the longest run of stripes along the common dimension that fits a slot of both
operands. A tile stacks as many bands along the rows as the slot allows (hardware-bound) or as the operand has
(software-bound).

Both operands share the split of the common dimension, so the length of a band is settled before rows are stacked.
-/

namespace BitSerial

/-- What limits the rows of a tile. -/
inductive TileBound where
  /-- The slot is full before the rows run out. -/
  | hardware
  /-- All rows of a bit plane fit one slot. -/
  | software
  deriving DecidableEq, Repr

/-- How one operand is cut. -/
structure Tiling where
  /-- The array dimension that the operand feeds. -/
  dim : Nat
  stripeBytes : Nat
  /-- Stripes that fit one slot. -/
  slotStripes : Nat
  /-- Stripes of one band. -/
  bandStripes : Nat
  bandBytes : Nat
  /-- Bands stacked in one tile. -/
  tileBands : Nat
  tileBytes : Nat
  /-- Operand rows that one tile covers. -/
  tileRows : Nat
  /-- Tiles along the rows of one bit plane. -/
  rowTiles : Nat
  /-- Tiles of the whole operand. -/
  tileCount : Nat
  bound : TileBound
  deriving DecidableEq, Repr

namespace Tiling

open Failure

/-- The bytes of one row within a band, which a fetch moves as one block. -/
def segmentBytes (tiling : Tiling) : Except Fault Nat := Word64.div tiling.bandBytes tiling.dim

/-- Cuts one operand, given the length of a band and the number of bands along the common dimension. -/
def ofOperand (geometry : Geometry) (operand : Operand) (shape : OperandShape) (bandStripes commonTiles : Nat) :
    Except Failure Tiling := do
  let dim := geometry.dim operand
  let slotStripes := geometry.slotStripes operand
  let stripeBytes := geometry.stripeBytes operand
  let bandBytes ← Word64.mul stripeBytes bandStripes
  let slotBands ← Word64.div slotStripes bandStripes
  let planeBands ← Word64.div shape.paddedRows dim
  let tileBands := min slotBands planeBands
  let bound := if slotBands < planeBands then TileBound.hardware else TileBound.software
  demandCapability (tileBands ≠ 0) (.emptyTile operand)
  let tileRows ← Word64.mul tileBands dim
  let looseRows ← Word64.mod shape.paddedRows tileRows
  demandShape (looseRows = 0) (.unevenTileRows operand shape.paddedRows tileRows)
  let rowTiles ← Word64.div shape.paddedRows tileRows
  let tileBytes ← Word64.mul bandBytes tileBands
  let bytes ← shape.bytes
  let looseBytes ← Word64.mod bytes tileBytes
  demandShape (looseBytes = 0) (.unevenTileBytes operand bytes tileBytes)
  let tileCount ← Word64.div bytes tileBytes
  let planeTiles ← Word64.mul shape.bits rowTiles
  let expected ← Word64.mul planeTiles commonTiles
  demandShape (tileCount = expected ∧ tileCount * tileBytes = bytes)
    (.tilingGap operand tileCount tileBytes expected bytes)
  return { dim, stripeBytes, slotStripes, bandStripes, bandBytes, tileBands, tileBytes, tileRows, rowTiles,
           tileCount, bound }

end Tiling

/-- The extents of the loops that walk the tiles of a product. -/
structure LoopNest where
  /-- Tiles along the common dimension. -/
  commonTiles : Nat
  /-- Row tiles of a plane of the left operand. -/
  lhsTiles : Nat
  /-- Row tiles of a plane of the right operand. -/
  rhsTiles : Nat
  lhsPlanes : Nat
  rhsPlanes : Nat
  deriving DecidableEq, Repr

namespace LoopNest

/-- Output tiles. The result stage writes each of them once. -/
def outputTiles (nest : LoopNest) : Except Fault Nat := Word64.mul nest.lhsTiles nest.rhsTiles

/-- Fetch and execute steps of one output tile. -/
def stepsPerOutput (nest : LoopNest) : Except Fault Nat := do
  Word64.mul (← Word64.mul nest.lhsPlanes nest.rhsPlanes) nest.commonTiles

/-- All fetch and execute steps. -/
def steps (nest : LoopNest) : Except Fault Nat := do
  Word64.mul (← nest.outputTiles) (← nest.stepsPerOutput)

end LoopNest

/-- How both operands of a product are cut. -/
structure TilePlan where
  lhs : Tiling
  rhs : Tiling
  /-- Stripes along the common dimension. -/
  stripes : Nat
  /-- Stripes of one band, the same for both operands. -/
  bandStripes : Nat
  /-- Bands along the common dimension. -/
  commonTiles : Nat
  deriving DecidableEq, Repr

namespace TilePlan

open Failure

/-- The tiling of one operand. -/
def operand (plan : TilePlan) : Operand → Tiling
  | .lhs => plan.lhs
  | .rhs => plan.rhs

/-- The largest shift of a partial product, that of the two highest planes. Planes are counted in 32-bit words. -/
def largestShift (gemm : Gemm) : Except Fault Nat := Word32.add (gemm.lhs.bits - 1) (gemm.rhs.bits - 1)

/-- Cuts both operands for an array, or says which precondition fails first. -/
def ofGemm (geometry : Geometry) (gemm : Gemm) : Except Failure TilePlan := do
  geometry.check
  gemm.check geometry
  let lhsSlot := geometry.slotStripes .lhs
  let rhsSlot := geometry.slotStripes .rhs
  demandCapability (lhsSlot ≠ 0 ∧ rhsSlot ≠ 0) (.shallowMemories geometry.lhsEntries geometry.rhsEntries)
  let shift ← largestShift gemm
  demandCapability (shift ≤ geometry.maxShift)
    (.shiftTooLarge gemm.lhs.bits gemm.rhs.bits shift geometry.maxShift)
  let stripes ← Word64.div gemm.lhs.paddedCols geometry.commonDim
  let bandStripes := min (min lhsSlot rhsSlot) stripes
  let looseStripes ← Word64.mod stripes bandStripes
  demandShape (looseStripes = 0) (.unevenStripes stripes bandStripes)
  let commonTiles ← Word64.div stripes bandStripes
  let lhs ← Tiling.ofOperand geometry .lhs gemm.lhs bandStripes commonTiles
  let rhs ← Tiling.ofOperand geometry .rhs gemm.rhs bandStripes commonTiles
  return { lhs, rhs, stripes, bandStripes, commonTiles }

/-- The loops that walk the tiles of a plan. -/
def loopNest (plan : TilePlan) (gemm : Gemm) : LoopNest where
  commonTiles := plan.commonTiles
  lhsTiles := plan.lhs.rowTiles
  rhsTiles := plan.rhs.rowTiles
  lhsPlanes := gemm.lhs.bits
  rhsPlanes := gemm.rhs.bits

end TilePlan

end BitSerial
