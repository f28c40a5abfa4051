import BitSerial.Shape
import BitSerial.Tile

/-! # Refusals

The reasons for which a request is turned down before or during a run, and their wording. Every precondition is
checked before the first command reaches a queue, and no refusal is retried.
-/

namespace BitSerial

/-- A precondition on the operand shapes that does not hold. -/
inductive ShapeDefect where
  | noPlanes (operand : Operand)
  | empty (operand : Operand) (rows cols : Nat)
  | shortPadding (operand : Operand) (shape : OperandShape)
  | unevenArrayRows (operand : Operand) (paddedRows dim : Nat)
  | unevenArrayCols (operand : Operand) (paddedCols commonDim : Nat)
  | partialWords (operand : Operand) (paddedCols : Nat)
  | unequalDepth (lhs rhs : OperandShape)
  | wordCount (found needed : Nat)
  | unevenStripes (stripes perTile : Nat)
  | unevenTileRows (operand : Operand) (paddedRows tileRows : Nat)
  | unevenTileBytes (operand : Operand) (bytes tileBytes : Nat)
  | tilingGap (operand : Operand) (tiles tileBytes expected bytes : Nat)
  | fetchAddress (tile : TileIndex) (operand : Operand) (address : Nat)
  | fetchTransfer (tile : TileIndex) (operand : Operand) (blockBytes strideBytes : Nat)
  | resultAddress (address stride : Nat)
  deriving DecidableEq, Repr

/-- The wording of a shape defect. -/
def ShapeDefect.message : ShapeDefect → String
  | noPlanes operand => s!"{operand.name} has zero bit planes"
  | empty operand rows cols => s!"{operand.name} is empty ({rows}x{cols})"
  | shortPadding operand shape =>
    s!"{operand.name} padding smaller than logical size: {shape.rows}x{shape.cols} in " ++
    s!"{shape.paddedRows}x{shape.paddedCols}"
  | unevenArrayRows operand paddedRows dim =>
    s!"{operand.name}.rows_aligned {paddedRows} is not a multiple of array dimension {dim}"
  | unevenArrayCols operand paddedCols commonDim =>
    s!"{operand.name}.cols_aligned {paddedCols} is not a multiple of dpa_dim_common {commonDim}"
  | partialWords operand paddedCols =>
    s!"{operand.name}.cols_aligned {paddedCols} does not fill whole {wordBits}-bit words"
  | unequalDepth lhs rhs =>
    s!"common dimension differs: lhs {lhs.cols} ({lhs.paddedCols} aligned), " ++
    s!"rhs {rhs.cols} ({rhs.paddedCols} aligned)"
  | wordCount found needed => s!"packed data has {found} words, shape needs {needed}"
  | unevenStripes stripes perTile =>
    s!"{stripes} common-dimension stripes do not split into L1 tiles of {perTile}"
  | unevenTileRows operand paddedRows tileRows =>
    s!"{operand.name}.rows_aligned {paddedRows} does not split into L2 row tiles of {tileRows}"
  | unevenTileBytes operand bytes tileBytes =>
    s!"{operand.name} size {bytes} is not a multiple of the L2 tile size {tileBytes}"
  | tilingGap operand tiles tileBytes expected bytes =>
    s!"{operand.name} L2 tiling leaves a gap: {tiles} tiles of {tileBytes} bytes, " ++
    s!"{expected} expected for {bytes} bytes"
  | fetchAddress tile operand address =>
    s!"tile {tile.describe}: {operand.name} fetch base 0x{hexadecimal 1 address} " ++
    s!"is not {addressAlign}-byte aligned"
  | fetchTransfer tile operand blockBytes strideBytes =>
    s!"tile {tile.describe}: {operand.name} fetch blocks of {blockBytes} bytes every {strideBytes} bytes " ++
    s!"are not multiples of {transferAlign}"
  | resultAddress address stride =>
    s!"result write at 0x{hexadecimal 1 address} stride {stride} " ++
    s!"is not aligned to {elementBytes}-byte elements"

/-- A capacity of the array that does not suffice, or dimensions of an array that cannot work. -/
inductive CapabilityDefect where
  | emptyArray (lhsDim commonDim rhsDim : Nat)
  | emptyChannel
  | unevenChannel (commonDim readWidth : Nat)
  | partialBytes
  | noQueue
  | shallowMemories (lhsEntries rhsEntries : Nat)
  | shiftTooLarge (lhsBits rhsBits shift maxShift : Nat)
  | emptyTile (operand : Operand)
  deriving DecidableEq, Repr

/-- The wording of a capability defect. -/
def CapabilityDefect.message : CapabilityDefect → String
  | emptyArray lhsDim commonDim rhsDim => s!"zero-sized dot product array {lhsDim}x{commonDim}x{rhsDim}"
  | emptyChannel => "zero-width DRAM channel"
  | unevenChannel commonDim readWidth =>
    s!"dpa_dim_common {commonDim} is not a multiple of read_chan_width {readWidth}"
  | partialBytes => "array and channel widths must be whole bytes"
  | noQueue => "command queues have no entries"
  | shallowMemories lhsEntries rhsEntries =>
    s!"operand memories too shallow to double-buffer: lhs {lhsEntries} rhs {rhsEntries} entries"
  | shiftTooLarge lhsBits rhsBits shift maxShift =>
    s!"{lhsBits}x{rhsBits}-bit product needs shift {shift} but hardware supports {maxShift}"
  | emptyTile operand => s!"{operand.name} L2 tile holds no L1 tiles"

/-- What an operand or a result buffer of the host has wrong. -/
inductive HostDefect where
  | shape (operand : Operand) (found attached : OperandShape)
  | words (operand : Operand) (found needed : Nat)
  | elements (found needed : Nat)
  deriving DecidableEq, Repr

/-- The wording of a host defect, after the name of what it concerns. -/
def HostDefect.message : HostDefect → String
  | shape operand found attached =>
    s!"{operand.name} operand mismatch: shape {found.describe} differs from attached {attached.describe}"
  | words operand found needed =>
    s!"{operand.name} operand mismatch: {found} packed words, shape needs {needed}"
  | elements found needed =>
    s!"result operand mismatch: buffer holds {found} elements, result has {needed}"

/-- Why device memory turns a request down. -/
inductive MemoryDefect where
  /-- The window has too little room left. -/
  | outOfMemory (requested available : Nat)
  /-- No live buffer starts at the address. -/
  | unknownBuffer (address : Nat)
  /-- A copy is longer than the buffer. -/
  | outOfBounds (address length capacity : Nat)
  deriving DecidableEq, Repr

/-- The wording of a memory defect. -/
def MemoryDefect.message : MemoryDefect → String
  | outOfMemory requested available =>
    s!"out of device memory: requested {requested} bytes, {available} available"
  | unknownBuffer address => s!"unknown device buffer at 0x{hexadecimal 16 address}"
  | outOfBounds address length capacity =>
    s!"copy of {length} bytes exceeds buffer of {capacity} bytes at 0x{hexadecimal 16 address}"

/-- The part of a run that was in progress when it was given up. -/
inductive RunPhase where
  /-- Feeding commands into the queues. -/
  | push
  /-- Waiting for the result stage to finish. -/
  | completion
  deriving DecidableEq, Repr

/-- The name of a phase in messages. -/
def RunPhase.name : RunPhase → String
  | .push => "push"
  | .completion => "completion wait"

/-- Why a request is turned down. -/
inductive Refusal where
  | unsupportedShape (defect : ShapeDefect)
  | capabilityMismatch (defect : CapabilityDefect)
  /-- The device names itself otherwise than expected. -/
  | deviceNotReady (expected found : Nat)
  | operandMismatch (defect : HostDefect)
  | deviceMemory (defect : MemoryDefect)
  /-- The deadline passed. -/
  | timedOut (phase : RunPhase)
  /-- The run was cancelled. -/
  | cancelled (phase : RunPhase)
  deriving DecidableEq, Repr

/-- The wording of a refusal. That of a passed deadline leaves out how long the run took. -/
def Refusal.message : Refusal → String
  | unsupportedShape defect => "unsupported shape: " ++ defect.message
  | capabilityMismatch defect => "capability mismatch: " ++ defect.message
  | deviceNotReady expected found =>
    s!"device not ready: expected signature 0x{hexadecimal 8 expected}, found 0x{hexadecimal 8 found}"
  | operandMismatch defect => defect.message
  | deviceMemory defect => "device memory: " ++ defect.message
  | timedOut phase => s!"run timed out during {phase.name}"
  | cancelled phase => s!"run cancelled during {phase.name}"

/-- The wordings of a refusal and of what is behind it. Device memory has a wording of its own. -/
def Refusal.chain : Refusal → List String
  | deviceMemory defect => [(deviceMemory defect).message, defect.message]
  | reason => [reason.message]

/-- Why a computation has no answer: it met a fault, or it was turned down. -/
inductive Failure where
  | fault (cause : Fault)
  | refused (reason : Refusal)
  deriving DecidableEq, Repr

namespace Failure

/-- Turns a request down for its shapes. -/
def shape {α : Type} (defect : ShapeDefect) : Except Failure α := .error (.refused (.unsupportedShape defect))

/-- Turns a request down for the capacities of the array. -/
def capability {α : Type} (defect : CapabilityDefect) : Except Failure α :=
  .error (.refused (.capabilityMismatch defect))

/-- Carries faults over to computations that can also be turned down. -/
instance : MonadLift (Except Fault) (Except Failure) where
  monadLift computation := computation.mapError .fault

/-- Carries refusals over to computations that can also meet faults. -/
instance : MonadLift (Except Refusal) (Except Failure) where
  monadLift computation := computation.mapError .refused

end Failure

end BitSerial
