import BitSerial.Fault

/-! # Pipeline stages

The three stages of the array and the states of a stage's controller, each with its families of values.
-/

namespace BitSerial

/-- A pipeline stage, in the order in which data passes them. -/
inductive Stage where
  /-- Loads operand tiles from memory into on-chip buffers. -/
  | fetch
  /-- Drives the dot product array from on-chip buffers. -/
  | execute
  /-- Writes accumulated results back to memory. -/
  | result
  deriving DecidableEq, Repr

namespace Stage

/-- All stages, in pipeline order. -/
def all : List Stage := [.fetch, .execute, .result]

/-- The position of a stage in the pipeline. -/
def index : Stage → Nat
  | .fetch => 0
  | .execute => 1
  | .result => 2

/-- The name of a stage in reports. -/
def name : Stage → String
  | .fetch => "Fetch"
  | .execute => "Execute"
  | .result => "Result"

end Stage

/-- One value for each stage. -/
structure PerStage (α : Type) where
  fetch : α
  execute : α
  result : α
  deriving DecidableEq, Repr

namespace PerStage

variable {α β : Type}

/-- The value of one stage. -/
def get (family : PerStage α) : Stage → α
  | .fetch => family.fetch
  | .execute => family.execute
  | .result => family.result

/-- Replaces the value of one stage. -/
def set (family : PerStage α) (value : α) : Stage → PerStage α
  | .fetch => { family with fetch := value }
  | .execute => { family with execute := value }
  | .result => { family with result := value }

/-- The same value for all stages. -/
def all (value : α) : PerStage α := ⟨value, value, value⟩

/-- Applies a function to all values. -/
def map (f : α → β) (family : PerStage α) : PerStage β :=
  ⟨f family.fetch, f family.execute, f family.result⟩

/-- The values in pipeline order. -/
def toList (family : PerStage α) : List α := [family.fetch, family.execute, family.result]

@[simp] theorem get_set_self (family : PerStage α) (value : α) (stage : Stage) :
    (family.set value stage).get stage = value := by
  cases stage <;> rfl

theorem get_set_of_ne (family : PerStage α) (value : α) {stage other : Stage} (h : other ≠ stage) :
    (family.set value stage).get other = family.get other := by
  cases stage <;> cases other <;> simp_all [get, set]

end PerStage

/-- What the sequencer of a stage is doing. -/
inductive ControlState where
  /-- Idle, waiting for the next command. -/
  | command
  /-- Working on a command. -/
  | run
  /-- Handing a buffer region to the next stage. -/
  | send
  /-- Waiting for a buffer region from a neighbouring stage. -/
  | receive
  deriving DecidableEq, Repr

namespace ControlState

/-- All states, in the order in which their cycle counters are numbered. -/
def all : List ControlState := [.command, .run, .send, .receive]

/-- The column label of a state in reports. -/
def label : ControlState → String
  | .command => "csGetCmd"
  | .run => "csRun"
  | .send => "csSend"
  | .receive => "csReceive"

end ControlState

/-- The cycles that one stage spent in each controller state. -/
structure StateCycles where
  command : Nat
  run : Nat
  send : Nat
  receive : Nat
  deriving DecidableEq, Repr

namespace StateCycles

/-- No cycle spent anywhere. -/
def zero : StateCycles := ⟨0, 0, 0, 0⟩

/-- The cycles of one state. -/
def get (cycles : StateCycles) : ControlState → Nat
  | .command => cycles.command
  | .run => cycles.run
  | .send => cycles.send
  | .receive => cycles.receive

/-- Replaces the cycles of one state. -/
def set (cycles : StateCycles) (count : Nat) : ControlState → StateCycles
  | .command => { cycles with command := count }
  | .run => { cycles with run := count }
  | .send => { cycles with send := count }
  | .receive => { cycles with receive := count }

/-- The cycles in the order in which the counters are numbered. -/
def toList (cycles : StateCycles) : List Nat := [cycles.command, cycles.run, cycles.send, cycles.receive]

/-- The cycles of all states together. -/
def total (cycles : StateCycles) : Nat := cycles.command + cycles.run + cycles.send + cycles.receive

/-- Counts one more cycle in a state. A counter that has reached the largest 32-bit word stays there. -/
def count (cycles : StateCycles) (state : ControlState) : StateCycles :=
  cycles.set (min (cycles.get state + 1) (Word32.size - 1)) state

end StateCycles

end BitSerial
