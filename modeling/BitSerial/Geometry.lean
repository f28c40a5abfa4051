import BitSerial.Fault
import BitSerial.Operand

/-! # Array geometry

The dimensions and capacities of an instantiated array. A host discovers them when it attaches, and they never
change after that. Every field is a 32-bit word; `Geometry.Fits` says so where a theorem needs it.
-/

namespace BitSerial

/-- Operand buffer regions shared by the fetch and execute stages. -/
def operandSlots : Nat := 2

/-- Result buffer regions shared by the execute and result stages. -/
def resultSlots : Nat := 2

/-- The alignment that the fetch stage asks of memory addresses, in bytes. -/
def addressAlign : Nat := 64

/-- The alignment that the fetch stage asks of transfer sizes, in bytes. -/
def transferAlign : Nat := 8

/-- The bytes of one accumulated element. -/
def elementBytes : Nat := 4

/-- The bits of one packed word. -/
def wordBits : Nat := 64

/-- The bytes of one packed word. -/
def wordBytes : Nat := 8

/-- The dimensions and capacities of an array. -/
structure Geometry where
  /-- Accumulator width in bits. -/
  accumulatorWidth : Nat
  /-- Entries of each command queue. -/
  queueEntries : Nat
  /-- Bits along the common dimension that the array takes at once. -/
  commonDim : Nat
  /-- Array rows, fed by the left operand. -/
  lhsDim : Nat
  /-- Array columns, fed by the right operand. -/
  rhsDim : Nat
  /-- Words of each left on-chip memory. A word holds `commonDim` bits. -/
  lhsEntries : Nat
  /-- The largest shift of a partial product. -/
  maxShift : Nat
  /-- Bits read from memory in a cycle. -/
  readWidth : Nat
  /-- Words of each right on-chip memory. -/
  rhsEntries : Nat
  /-- Bits written to memory in a cycle. -/
  writeWidth : Nat
  deriving DecidableEq, Repr

namespace Geometry

/-- An 8 by 256 by 8 array with 1024-word memories and 64-bit channels. -/
def reference : Geometry where
  accumulatorWidth := 32
  queueEntries := 16
  commonDim := 256
  lhsDim := 8
  rhsDim := 8
  lhsEntries := 1024
  maxShift := 16
  readWidth := 64
  rhsEntries := 1024
  writeWidth := 64

/-- Every field is a 32-bit word. -/
structure Fits (geometry : Geometry) : Prop where
  accumulatorWidth : geometry.accumulatorWidth < Word32.size
  queueEntries : geometry.queueEntries < Word32.size
  commonDim : geometry.commonDim < Word32.size
  lhsDim : geometry.lhsDim < Word32.size
  rhsDim : geometry.rhsDim < Word32.size
  lhsEntries : geometry.lhsEntries < Word32.size
  maxShift : geometry.maxShift < Word32.size
  readWidth : geometry.readWidth < Word32.size
  rhsEntries : geometry.rhsEntries < Word32.size
  writeWidth : geometry.writeWidth < Word32.size

/-- The array dimension that an operand feeds. -/
def dim (geometry : Geometry) : Operand → Nat
  | .lhs => geometry.lhsDim
  | .rhs => geometry.rhsDim

/-- The words of each on-chip memory of an operand. -/
def entries (geometry : Geometry) : Operand → Nat
  | .lhs => geometry.lhsEntries
  | .rhs => geometry.rhsEntries

/-- The stripes that one slot of an operand holds. A stripe takes one word of each on-chip memory. -/
def slotStripes (geometry : Geometry) (operand : Operand) : Nat := geometry.entries operand / operandSlots

/-- The bytes of one stripe, which fills the array once for an operand. Two 32-bit factors cannot overflow. -/
def stripeBytes (geometry : Geometry) (operand : Operand) : Nat :=
  geometry.dim operand * geometry.commonDim / 8

/-- The bytes of all on-chip memories of one operand. -/
def memoryBytes (geometry : Geometry) (operand : Operand) : Except Fault Nat := do
  let words ← Word64.mul (geometry.dim operand) (geometry.entries operand)
  let bits ← Word64.mul words geometry.commonDim
  return bits / 8

/-- The bytes of all on-chip operand memories. -/
def bufferBytes (geometry : Geometry) : Except Fault Nat := do
  let lhsBytes ← geometry.memoryBytes .lhs
  let rhsBytes ← geometry.memoryBytes .rhs
  Word64.add lhsBytes rhsBytes

/-- Words of the read channel in one word of the array. -/
def channelRatio (geometry : Geometry) : Except Fault Nat :=
  Word64.div geometry.commonDim geometry.readWidth

/-- Bytes read from memory in a cycle of the device, at least one. -/
def readBytes (geometry : Geometry) : Nat := max (geometry.readWidth / 8) 1

/-- Bytes written to memory in a cycle of the device, at least one. -/
def writeBytes (geometry : Geometry) : Nat := max (geometry.writeWidth / 8) 1

/-- The fields of a geometry as the device lists them, one to a line. -/
def describe (geometry : Geometry) : String :=
  s!"accWidth = {geometry.accumulatorWidth}\n" ++
  s!"cmdQueueEntries = {geometry.queueEntries}\n" ++
  s!"dpaDimCommon = {geometry.commonDim}\n" ++
  s!"dpaDimLHS = {geometry.lhsDim}\n" ++
  s!"dpaDimRHS = {geometry.rhsDim}\n" ++
  s!"lhsEntriesPerMem = {geometry.lhsEntries}\n" ++
  s!"maxShiftSteps = {geometry.maxShift}\n" ++
  s!"readChanWidth = {geometry.readWidth}\n" ++
  s!"rhsEntriesPerMem = {geometry.rhsEntries}\n" ++
  s!"writeChanWidth = {geometry.writeWidth}"

end Geometry

end BitSerial
