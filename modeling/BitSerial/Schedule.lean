import BitSerial.Command
import BitSerial.Residency
import BitSerial.Tiling

/-! # Schedules

A schedule lists the instructions of the three stages for one product, with the memory traffic that they cause.

Output tiles follow each other with the right row tile running fastest. Every output tile takes one step for each pair
of bit planes and each tile of the common dimension, the latter running fastest and the left plane slowest. A step is
one fetch and one execute instruction; an output tile ends with one result instruction. Operand slots alternate from
step to step and result slots from output tile to output tile.

Before a fetch is written, the tracker is asked for the tile; a tile that is already in its slot is not transferred
again. The alignment of every transfer and every result tile is checked as it is written, so no schedule breaks the
rules of the memory channels.
-/

namespace BitSerial

/-- The addresses of the three buffers of a product. -/
structure Addresses where
  lhs : Nat
  rhs : Nat
  result : Nat
  deriving DecidableEq, Repr

/-- The address of the buffer of one operand. -/
def Addresses.operand (addresses : Addresses) : Operand → Nat
  | .lhs => addresses.lhs
  | .rhs => addresses.rhs

/-- The memory traffic of a schedule. -/
structure Traffic where
  /-- Bytes read by the fetch stage. -/
  fetchBytes : Nat
  /-- Bytes written by the result stage. -/
  writeBytes : Nat
  deriving DecidableEq, Repr

/-- All bytes that move. -/
def Traffic.total (traffic : Traffic) : Except Fault Nat := Word64.add traffic.fetchBytes traffic.writeBytes

/-- The instructions of a product. -/
structure Schedule where
  plan : TilePlan
  nest : LoopNest
  fetch : List (Instruction FetchCommand)
  execute : List (Instruction ExecuteCommand)
  result : List (Instruction ResultCommand)
  traffic : Traffic
  deriving DecidableEq, Repr

namespace Schedule

/-- The instructions of one stage. -/
def program (schedule : Schedule) : Stage → List (Instruction Command)
  | .fetch => schedule.fetch.map (.map .fetch)
  | .execute => schedule.execute.map (.map .execute)
  | .result => schedule.result.map (.map .result)

/-- The number of instructions of each stage. -/
def counts (schedule : Schedule) : PerStage Nat :=
  ⟨schedule.fetch.length, schedule.execute.length, schedule.result.length⟩

end Schedule

/-- The loop indices of a step within its output tile. -/
structure StepIndex where
  lhsPlane : Nat
  rhsPlane : Nat
  common : Nat
  deriving DecidableEq, Repr

namespace LoopNest

/-- The number of output tiles, without bound. -/
def outputCount (nest : LoopNest) : Nat := nest.lhsTiles * nest.rhsTiles

/-- The number of steps of an output tile, without bound. -/
def stepCount (nest : LoopNest) : Nat := nest.lhsPlanes * nest.rhsPlanes * nest.commonTiles

/-- The left row tile of an output tile. -/
def lhsTile (nest : LoopNest) (output : Nat) : Nat := output / nest.rhsTiles

/-- The right row tile of an output tile. -/
def rhsTile (nest : LoopNest) (output : Nat) : Nat := output % nest.rhsTiles

/-- The loop indices of a step of an output tile. -/
def stepIndex (nest : LoopNest) (step : Nat) : StepIndex where
  lhsPlane := step / nest.commonTiles / nest.rhsPlanes
  rhsPlane := step / nest.commonTiles % nest.rhsPlanes
  common := step % nest.commonTiles

end LoopNest

/-- A product placed in memory: the array, the shapes, how they are cut and where the buffers are. The plan is the one
computed for the same array and shapes. -/
structure Layout where
  geometry : Geometry
  gemm : Gemm
  plan : TilePlan
  addresses : Addresses
  deriving DecidableEq, Repr

namespace Layout

open Failure

variable (layout : Layout)

/-- The loops of the product. -/
def nest : LoopNest := layout.plan.loopNest layout.gemm

/-- The address of the tile of an operand at a plane, a row tile and a tile of the common dimension. -/
def tileAddress (operand : Operand) (plane rowTile common : Nat) : Except Fault Nat := do
  let shape := layout.gemm.operand operand
  let tiling := layout.plan.operand operand
  let planeOffset ← Word64.mul plane (← shape.planeBytes)
  let rowOffset ← Word64.mul (← Word64.mul rowTile tiling.tileRows) shape.rowBytes
  let commonOffset ← Word64.mul common (← tiling.segmentBytes)
  let offset ← Word64.add (← Word64.add planeOffset rowOffset) commonOffset
  Word64.add (layout.addresses.operand operand) offset

/-- The on-chip memory that takes the first row of a tile. The memories of the left operand come first. -/
def firstMemory : Operand → Nat
  | .lhs => 0
  | .rhs => layout.geometry.lhsDim

/-- The transfer that brings a tile into a slot. -/
def fetchBlock (operand : Operand) (slot address : Nat) : Except Fault FetchBlock := do
  let shape := layout.gemm.operand operand
  let tiling := layout.plan.operand operand
  let segmentBytes ← tiling.segmentBytes
  return {
    address
    blockBytes := Word32.low segmentBytes
    strideBytes := Word32.low shape.rowBytes
    blockCount := Word32.low tiling.tileRows
    firstWord := Word32.low (slot * tiling.slotStripes)
    firstMemory := layout.firstMemory operand
    memoryCount := Word32.low tiling.dim }

/-- Asks the tracker for a tile, and writes its transfer if it is not in the slot. -/
def transfer? (operand : Operand) (slot address : Nat) (residency : Residency) :
    Except Fault (Option FetchBlock × Residency) := do
  let (hit, residency) ← residency.access operand slot (.ofAddress address)
  if hit then
    return (none, residency)
  else
    let block ← layout.fetchBlock operand slot address
    return (some block, residency)

/-- Checks the alignment of a transfer. -/
def checkTransfer (tile : TileIndex) (operand : Operand) : Option FetchBlock → Except Failure Unit
  | none => .ok ()
  | some block => do
    demandShape (block.address % addressAlign = 0) (.fetchAddress tile operand block.address)
    demandShape (block.blockBytes % transferAlign = 0 ∧ block.strideBytes % transferAlign = 0)
      (.fetchTransfer tile operand block.blockBytes block.strideBytes)

/-- Whether the partial products of two planes are subtracted: one of them, but not both, is the sign plane of its
operand. -/
def negates (lhsPlane rhsPlane : Nat) : Bool :=
  (layout.gemm.lhs.signed && lhsPlane + 1 == layout.gemm.lhs.bits) !=
    (layout.gemm.rhs.signed && rhsPlane + 1 == layout.gemm.rhs.bits)

/-- The execute command of a step of an output tile. -/
def executeCommand (output step slot : Nat) : ExecuteCommand :=
  let index := layout.nest.stepIndex step
  { operandSlot := slot
    resultSlot := output % resultSlots
    lhsWord := Word32.low (slot * layout.plan.lhs.slotStripes)
    rhsWord := Word32.low (slot * layout.plan.rhs.slotStripes)
    stripes := Word32.low layout.plan.bandStripes
    lhsBands := Word32.low layout.plan.lhs.tileBands
    rhsBands := Word32.low layout.plan.rhs.tileBands
    shift := Word32.low (index.lhsPlane + index.rhsPlane)
    negate := layout.negates index.lhsPlane index.rhsPlane
    clear := step == 0
    commit := step + 1 == layout.nest.stepCount }

/-- What building a schedule carries from instruction to instruction. -/
structure Progress where
  residency : Residency
  traffic : Traffic
  deriving DecidableEq, Repr

/-- The instructions of one step. -/
structure Step where
  fetch : Instruction FetchCommand
  execute : Instruction ExecuteCommand
  deriving DecidableEq, Repr

/-- Writes one step of an output tile. -/
def writeStep (bandPairs output step : Nat) (progress : Progress) : Except Failure (Step × Progress) := do
  let nest := layout.nest
  let lhsTile := nest.lhsTile output
  let rhsTile := nest.rhsTile output
  let index := nest.stepIndex step
  let slot := (output * nest.stepCount + step) % operandSlots
  let tile : TileIndex := ⟨Word32.low lhsTile, Word32.low rhsTile, Word32.low index.common⟩
  let lhsAddress ← layout.tileAddress .lhs index.lhsPlane lhsTile index.common
  let rhsAddress ← layout.tileAddress .rhs index.rhsPlane rhsTile index.common
  let (lhs, residency) ← layout.transfer? .lhs slot lhsAddress progress.residency
  let (rhs, residency) ← layout.transfer? .rhs slot rhsAddress residency
  checkTransfer tile .lhs lhs
  checkTransfer tile .rhs rhs
  let command : FetchCommand :=
    { slot, blocks := ⟨lhs, rhs⟩, segmentWords := Word32.low layout.plan.bandStripes }
  let fetchBytes ← Word64.add progress.traffic.fetchBytes (← command.bytes)
  let fetch := ⟨command, ⟨tile, command.transfers⟩⟩
  let execute := ⟨layout.executeCommand output step slot, ⟨tile, bandPairs⟩⟩
  return (⟨fetch, execute⟩, { residency, traffic := { progress.traffic with fetchBytes } })

/-- The result command of an output tile. It does not announce the bytes of the run. -/
def resultCommand (output : Nat) : Except Fault ResultCommand := do
  let lhsRow ← Word64.mul (layout.nest.lhsTile output) layout.plan.lhs.tileRows
  let rhsRow ← Word64.mul (layout.nest.rhsTile output) layout.plan.rhs.tileRows
  let element ← Word64.add (← Word64.mul rhsRow layout.gemm.lhs.paddedRows) lhsRow
  let address ← Word64.add layout.addresses.result (← Word64.mul element elementBytes)
  let strideBytes ← Word64.mul layout.gemm.lhs.paddedRows elementBytes
  return {
    slot := output % resultSlots
    address
    strideBytes
    lhsRows := Word32.low layout.plan.lhs.tileRows
    rhsRows := Word32.low layout.plan.rhs.tileRows
    totalBytes := 0 }

/-- Writes the result instruction of an output tile. -/
def writeResult (bandPairs output : Nat) (progress : Progress) :
    Except Failure (Instruction ResultCommand × Progress) := do
  let command ← layout.resultCommand output
  demandShape (command.address % elementBytes = 0 ∧ command.strideBytes % elementBytes = 0)
    (.resultAddress command.address command.strideBytes)
  let writeBytes ← Word64.add progress.traffic.writeBytes (← command.bytes)
  let tile : TileIndex :=
    ⟨Word32.low (layout.nest.lhsTile output), Word32.low (layout.nest.rhsTile output), 0⟩
  return (⟨command, ⟨tile, bandPairs⟩⟩, { progress with traffic := { progress.traffic with writeBytes } })

/-- Writes something at each of a number of positions, from a given one on, while progress goes from position to
position. What was written before is given with the last first, and comes first in the list. -/
def writeEach {α : Type} (write : Nat → Progress → Except Failure (α × Progress)) :
    (count position : Nat) → Progress → (before : List α) → Except Failure (List α × Progress)
  | 0, _, progress, before => .ok (before.reverse, progress)
  | count + 1, position, progress, before => do
    let (written, progress) ← write position progress
    writeEach write count (position + 1) progress (written :: before)

theorem writeEach_zero {α : Type} (write : Nat → Progress → Except Failure (α × Progress)) (position : Nat)
    (progress : Progress) : writeEach write 0 position progress [] = .ok ([], progress) := rfl

/-- What was written before only stands in front. -/
theorem writeEach_before {α : Type} (write : Nat → Progress → Except Failure (α × Progress))
    (count position : Nat) (progress : Progress) (before : List α) :
    writeEach write count position progress before =
      (writeEach write count position progress []).map fun (list, progress) =>
        (before.reverse ++ list, progress) := by
  induction count generalizing position progress before with
  | zero => simp [writeEach, Except.map]
  | succ count ih =>
    simp only [writeEach]
    cases write position progress with
    | error failure => rfl
    | ok result =>
      change writeEach write count (position + 1) result.2 (result.1 :: before) =
        (writeEach write count (position + 1) result.2 [result.1]).map _
      rw [ih _ _ (result.1 :: before), ih _ _ [result.1]]
      cases writeEach write count (position + 1) result.2 [] <;> simp [Except.map]

/-- The first position is written before the others. -/
theorem writeEach_succ {α : Type} (write : Nat → Progress → Except Failure (α × Progress))
    (count position : Nat) (progress : Progress) :
    writeEach write (count + 1) position progress [] = (do
      let (written, progress) ← write position progress
      let (rest, progress) ← writeEach write count (position + 1) progress []
      return (written :: rest, progress)) := by
  simp only [writeEach]
  cases write position progress with
  | error failure => rfl
  | ok result =>
    change writeEach write count (position + 1) result.2 [result.1] = _
    rw [writeEach_before]
    cases h : writeEach write count (position + 1) result.2 [] with
    | error failure => simp [h, Except.map, bind, Except.bind]
    | ok value => simp [h, Except.map, bind, Except.bind, pure, Except.pure]

/-- The instructions of one output tile. -/
structure Output where
  steps : List Step
  result : Instruction ResultCommand
  deriving DecidableEq, Repr

/-- Writes one output tile: its steps, then its result instruction. -/
def writeOutput (bandPairs output : Nat) (progress : Progress) : Except Failure (Output × Progress) := do
  let (steps, progress) ← writeEach (layout.writeStep bandPairs output) layout.nest.stepCount 0 progress []
  let (result, progress) ← layout.writeResult bandPairs output progress
  return (⟨steps, result⟩, progress)

/-- Lets the last result instruction announce the bytes of the whole run. -/
def announceTotal (totalBytes : Except Fault Nat) (program : List (Instruction ResultCommand)) :
    Except Fault (List (Instruction ResultCommand)) :=
  match program.reverse with
  | [] => .ok []
  | last :: before => do
    let totalBytes ← totalBytes
    return ({ last with command := { last.command with totalBytes } } :: before).reverse

/-- Writes the schedule of the product, given what is already on chip, and says what is on chip after it. -/
def schedule (residency : Residency) : Except Failure (Schedule × Residency) := do
  let bandPairs ← Word64.mul layout.plan.lhs.tileBands layout.plan.rhs.tileBands
  let (outputs, progress) ←
    writeEach (layout.writeOutput (Word32.low bandPairs)) layout.nest.outputCount 0
      { residency, traffic := ⟨0, 0⟩ } []
  let result ← announceTotal layout.gemm.resultBytes (outputs.map (·.result))
  let steps := outputs.flatMap (·.steps)
  return ({
    plan := layout.plan
    nest := layout.nest
    fetch := steps.map (·.fetch)
    execute := steps.map (·.execute)
    result
    traffic := progress.traffic }, progress.residency)

end Layout

end BitSerial
