import BitSerial.Controller
import BitSerial.Memory
import BitSerial.Transport

/-! # Emulated device

A device of a given geometry at the level of timing. Stages, queues, hand-offs and memory traffic are modelled;
products are not computed, and the result stage writes zeros.

Time passes with register accesses: each of them takes one cycle, which comes before the access itself. A host that
polls is thus what moves the device on. Access to memory and a reset take no cycle.
-/

namespace BitSerial

/-- The signature of a device that is programmed as expected. -/
def expectedSignature : Nat := 0xb15e0a5c

/-- The clock assumed where none is configured, in MHz. -/
def defaultClock : Float := 200.0

/-- What a device has done since it was made. Nothing resets these counts. Cycles and pushes are counted one by one, so
their counts are plain numbers; a command adds all of its bytes at once, and more than a word holds are a fault. -/
structure Statistics where
  /-- Cycles, and therefore register accesses. -/
  ticks : Nat
  tokensPushed : Nat
  commandsPushed : Nat
  /-- Bytes read from memory by the fetch stage, as its commands announce them. -/
  bytesRead : Nat
  /-- Bytes written to memory by the result stage, as its commands announce them. -/
  bytesWritten : Nat
  deriving DecidableEq, Repr

/-- An emulated device. -/
structure Device where
  geometry : Geometry
  signature : Nat
  /-- Clock frequency in MHz. -/
  clock : Float
  stages : PerStage Controller
  enabled : PerStage Bool
  handoff : Handoff
  /-- Whether cycles are counted. -/
  counting : Bool
  /-- The global cycle counter, a 32-bit word that wraps. -/
  cycles : Nat
  memory : Memory
  statistics : Statistics

namespace Device

/-- A device that is programmed as expected and was never used. Its queues can always be set aside, by
`ofGeometry_reserved`. -/
def ofGeometry (geometry : Geometry) : Device where
  geometry := geometry
  signature := expectedSignature
  clock := defaultClock
  stages := .all (.ofDepth geometry.queueEntries)
  enabled := .all false
  handoff := .idle
  counting := false
  cycles := 0
  memory := .ofCapacity Memory.defaultCapacity
  statistics := ⟨0, 0, 0, 0, 0⟩

/-- There is room in host memory for the queues of every stage. -/
theorem ofGeometry_reserved {geometry : Geometry} (h : geometry.Fits) (stage : Stage) :
    Controller.reserved geometry.queueEntries = .ok ((ofGeometry geometry).stages.get stage) := by
  rw [Controller.reserved_of_lt h.queueEntries]
  cases stage <;> rfl

variable (device : Device)

/-- Limits the memory of a device that was never used. -/
def withCapacity (capacity : Nat) : Device := { device with memory := .ofCapacity capacity }

/-- Changes one stage. -/
def updateStage (stage : Stage) (f : Controller → Controller) : Device :=
  { device with stages := device.stages.set (f (device.stages.get stage)) stage }

/-- Freezes or releases a stage. -/
def stall (stage : Stage) (stalled : Bool) : Device := device.updateStage stage (·.setStalled stalled)

/-- The cycles that an operation works. -/
def duration (operation : Operation) : Except Fault Nat :=
  match operation.command with
  | .fetch command => do
    let bytes ← command.bytes
    return (bytes + device.geometry.readBytes - 1) / device.geometry.readBytes
  | .execute command => .ok (operation.token.repeats * command.stripes)
  | .result command => do
    let bytes ← command.bytes
    return (bytes + device.geometry.writeBytes - 1) / device.geometry.writeBytes

/-- Clears rows at a number of strided addresses, from a given row on. -/
def clearRows (address strideBytes rowBytes : Nat) :
    (count position : Nat) → Memory → Except Fault Memory
  | 0, _, memory => .ok memory
  | count + 1, position, memory => do
    let start ← Word64.add address (← Word64.mul position strideBytes)
    let memory ← memory.clear start rowBytes
    clearRows address strideBytes rowBytes count (position + 1) memory

/-- What a finished operation does to memory and statistics. -/
def complete (operation : Operation) : Except Fault Device :=
  match operation.command with
  | .fetch command => do
    let memory := command.transferList.foldl
      (fun memory block => memory.countRead block.address block.bytes) device.memory
    let bytesRead ← Word64.add device.statistics.bytesRead (← command.bytes)
    return { device with memory, statistics := { device.statistics with bytesRead } }
  | .execute _ => .ok device
  | .result command => do
    let memory ← clearRows command.address command.strideBytes command.rowBytes command.rhsRows 0 device.memory
    let bytes ← command.bytes
    let memory := memory.countWrite command.address bytes
    let bytesWritten ← Word64.add device.statistics.bytesWritten bytes
    return { device with memory, statistics := { device.statistics with bytesWritten } }

/-- One cycle of one stage. A stage that is not enabled does nothing. -/
def tickStage (stage : Stage) : Except Fault Device :=
  if device.enabled.get stage then do
    let advance ← (device.stages.get stage).tick device.handoff device.counting device.duration
    let device :=
      { device with stages := device.stages.set advance.controller stage, handoff := advance.handoff }
    match advance.finished with
    | none => return device
    | some operation => device.complete operation
  else
    .ok device

/-- Counts a cycle. -/
def countTick : Device :=
  { device with
    statistics := { device.statistics with ticks := device.statistics.ticks + 1 }
    cycles := if device.counting then Word32.low (device.cycles + 1) else device.cycles }

/-- One cycle. The stages take their turn in pipeline order, so that a region handed on by one of them reaches the
next within the same cycle. -/
def tick : Except Fault Device := do
  let device ← device.countTick.tickStage .fetch
  let device ← device.tickStage .execute
  device.tickStage .result

/-- A number of cycles without access by the host. -/
def step : Nat → Device → Except Fault Device
  | 0, device => .ok device
  | count + 1, device => do step count (← device.tick)

/-- Reads the signature. -/
def readSignature : Except Fault (Nat × Device) := do
  let device ← device.tick
  return (device.signature, device)

/-- Reads the geometry. -/
def readGeometry : Except Fault (Geometry × Device) := do
  let device ← device.tick
  return (device.geometry, device)

/-- Asks whether the queue of a stream is full. -/
def poll (stream : Stream) : Except Fault (Bool × Device) := do
  let device ← device.tick
  match stream with
  | .token stage => return ((device.stages.get stage).tokensFull, device)
  | .command stage => return ((device.stages.get stage).commandsFull, device)

/-- Pushes an entry into the queue of its stream. -/
def push (entry : Entry) : Except Fault Device := do
  let device ← device.tick
  match entry with
  | .token stage token =>
    let statistics := { device.statistics with tokensPushed := device.statistics.tokensPushed + 1 }
    return { device.updateStage stage (·.pushToken token) with statistics }
  | .command command =>
    let statistics := { device.statistics with commandsPushed := device.statistics.commandsPushed + 1 }
    return { device.updateStage command.stage (·.pushCommand command) with statistics }

/-- Asks for the operations queued on a stage or in flight. -/
def outstanding (stage : Stage) : Except Fault (Nat × Device) := do
  let device ← device.tick
  return (← (device.stages.get stage).outstanding, device)

/-- Enables and disables the stages. -/
def setEnabled (enabled : PerStage Bool) : Except Fault Device := do
  let device ← device.tick
  return { device with enabled }

/-- Drops all queued and unfinished work, frees all regions and turns stages and counting off. Memory and statistics
stay. -/
def reset : Device :=
  { device with
    stages := device.stages.map (·.reset)
    enabled := .all false
    handoff := .idle
    counting := false
    cycles := 0 }

/-- Turns counting on or off. Turning it on starts all counters from zero. -/
def setCounting (counting : Bool) : Except Fault Device := do
  let device ← device.tick
  let device :=
    if counting && !device.counting then
      { device with cycles := 0, stages := device.stages.map (·.clearCycles) }
    else device
  return { device with counting }

/-- Reads the global cycle counter. -/
def cycleCount : Except Fault (Nat × Device) := do
  let device ← device.tick
  return (device.cycles, device)

/-- Reads a state counter of a stage. -/
def stateCycles (stage : Stage) (state : ControlState) : Except Fault (Nat × Device) := do
  let device ← device.tick
  return ((device.stages.get stage).cycles.get state, device)

instance : Accelerator Device where
  poll stream device := device.poll stream
  push entry device := device.push entry
  outstanding stage device := device.outstanding stage
  setEnabled enabled device := device.setEnabled enabled
  setCounting counting device := device.setCounting counting
  stateCycles stage state device := device.stateCycles stage state
  cycleCount device := device.cycleCount
  reset device := device.reset

/-- Cuts a buffer from the memory of the device. -/
def allocate (bytes : Nat) : Except Fault (Except MemoryDefect Buffer × Device) := do
  let (answer, memory) ← device.memory.allocate bytes
  return (answer, { device with memory })

/-- Copies bytes of the host into a buffer. -/
def copyIn (address : Nat) (data : List UInt8) : Except Fault (Except MemoryDefect Unit × Device) := do
  let (answer, memory) ← device.memory.copyIn address data
  return (answer, { device with memory })

/-- Clears bytes at the start of a buffer. -/
def clearIn (address length : Nat) : Except Fault (Except MemoryDefect Unit × Device) := do
  let (answer, memory) ← device.memory.clearIn address length
  return (answer, { device with memory })

/-- Clearing in a buffer is copying zeros into it. -/
theorem clearIn_eq_copyIn (address length : Nat) :
    device.clearIn address length = device.copyIn address (List.replicate length 0) := by
  unfold clearIn copyIn
  rw [Memory.clearIn_eq_copyIn]

/-- Copies bytes of a buffer to the host. -/
def copyOut (address length : Nat) : Except Fault (Except MemoryDefect (List UInt8) × Device) := do
  let (answer, memory) ← device.memory.copyOut address length
  return (answer, { device with memory })

/-- Releases a buffer. -/
def free (address : Nat) : Device := { device with memory := device.memory.free address }

end Device

end BitSerial
