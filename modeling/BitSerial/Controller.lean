import BitSerial.Handoff
import BitSerial.Queue

/-! # Stage controllers

A stage has a queue of tokens and a queue of commands, both of the same depth, and a sequencer of four states. Idle, it
takes the next token and the next command together. It then waits for the regions that the command needs, works for
as many cycles as the operation takes, and spends one more cycle on handing the regions on.

A stalled stage takes entries into its queues but does nothing else.
-/

namespace BitSerial

/-- What a stage works on: a command with its token. -/
abbrev Operation := Instruction Command

/-- The sequencer of a stage, with the operation in flight. -/
inductive Activity where
  | idle
  /-- Waiting for the regions of an operation. -/
  | receiving (operation : Operation)
  /-- Working, with a number of cycles left. -/
  | running (operation : Operation) (left : Nat)
  /-- Handing on the regions of an operation. -/
  | sending (operation : Operation)
  deriving DecidableEq, Repr

namespace Activity

/-- The controller state that is shown. -/
def state : Activity → ControlState
  | idle => .command
  | receiving _ => .receive
  | running _ _ => .run
  | sending _ => .send

/-- The operation in flight. -/
def operation? : Activity → Option Operation
  | idle => none
  | receiving operation => some operation
  | running operation _ => some operation
  | sending operation => some operation

end Activity

/-- A stage: its queues, its sequencer and its counters. The state counters are 32-bit words that stop at their largest
value; operations and dropped entries are counted one by one, in plain numbers. -/
structure Controller where
  /-- The entries that each queue holds at most. -/
  depth : Nat
  tokens : Queue Token
  commands : Queue Command
  activity : Activity
  /-- Cycles counted in each state. -/
  cycles : StateCycles
  stalled : Bool
  /-- Operations finished since the last reset. -/
  completed : Nat
  /-- Entries dropped because their queue was full. -/
  overflows : Nat
  deriving DecidableEq, Repr

namespace Controller

/-- A stage with empty queues. -/
def ofDepth (depth : Nat) : Controller where
  depth := depth
  tokens := .empty
  commands := .empty
  activity := .idle
  cycles := .zero
  stalled := false
  completed := 0
  overflows := 0

/-- The host memory of a queued token: four 32-bit words. -/
def tokenBytes : Nat := 16

/-- The host memory of a queued command. All commands take as much as the longest, a fetch with two blocks. -/
def commandBytes : Nat := 88

/-- A stage with empty queues, if host memory can have a block for each queue at its full depth. -/
def reserved (depth : Nat) : Except Fault Controller := do
  reserve (depth * tokenBytes)
  reserve (depth * commandBytes)
  return ofDepth depth

/-- A token is shorter than a command, so the command queue decides. -/
theorem reserved_eq_ok_iff {depth : Nat} {found : Controller} :
    reserved depth = .ok found ↔ depth * commandBytes ≤ largestBlock ∧ found = ofDepth depth := by
  unfold reserved reserve
  by_cases hcommands : depth * commandBytes ≤ largestBlock
  · have htokens : depth * tokenBytes ≤ largestBlock :=
      Nat.le_trans (Nat.mul_le_mul_left depth (show tokenBytes ≤ commandBytes by decide)) hcommands
    rw [if_pos htokens, if_pos hcommands]
    exact ⟨fun h => ⟨hcommands, (Except.ok.inj h).symm⟩, fun h => congrArg Except.ok h.2.symm⟩
  · rw [if_neg hcommands]
    refine ⟨fun h => ?_, fun h => absurd h.1 hcommands⟩
    split at h <;> cases h

/-- The queues of a device are as deep as a 32-bit field says, and there is always room for those. -/
theorem reserved_of_lt {depth : Nat} (hdepth : depth < Word32.size) :
    reserved depth = .ok (ofDepth depth) :=
  reserved_eq_ok_iff.2 ⟨by unfold commandBytes largestBlock; unfold Word32.size at hdepth; omega, rfl⟩

variable (controller : Controller)

/-- Whether the token queue is full. -/
def tokensFull : Bool := controller.depth ≤ controller.tokens.length

/-- Whether the command queue is full. -/
def commandsFull : Bool := controller.depth ≤ controller.commands.length

/-- Queues a token. A full queue drops it and counts that. -/
def pushToken (token : Token) : Controller :=
  if controller.tokensFull then { controller with overflows := controller.overflows + 1 }
  else { controller with tokens := controller.tokens.push token }

/-- Queues a command. A full queue drops it and counts that. -/
def pushCommand (command : Command) : Controller :=
  if controller.commandsFull then { controller with overflows := controller.overflows + 1 }
  else { controller with commands := controller.commands.push command }

/-- Queued tokens and the operation in flight, as a 32-bit count. -/
def outstanding : Except Fault Nat :=
  Word32.add controller.tokens.length (if controller.activity.operation?.isSome then 1 else 0)

/-- Freezes or releases the stage. -/
def setStalled (stalled : Bool) : Controller := { controller with stalled }

/-- Sets the state counters to zero. -/
def clearCycles : Controller := { controller with cycles := .zero }

/-- Drops all queued and unfinished work. A stall and the count of dropped entries survive. -/
def reset : Controller :=
  { ofDepth controller.depth with stalled := controller.stalled, overflows := controller.overflows }

/-- What one cycle does: the operation that finished its work in it, the stage and the regions after it. -/
structure Advance where
  finished : Option Operation
  controller : Controller
  handoff : Handoff
  deriving DecidableEq, Repr

/-- Moves the sequencer on by one cycle. The length of an operation is asked for when its work starts; no work takes
less than a cycle. -/
def advance (handoff : Handoff) (duration : Operation → Except Fault Nat) : Except Fault Advance :=
  match controller.activity with
  | .idle =>
    match controller.tokens.head?, controller.commands.head? with
    | some token, some command =>
      .ok ⟨none, { controller with
        tokens := controller.tokens.tail
        commands := controller.commands.tail
        activity := .receiving ⟨command, token⟩ }, handoff⟩
    | _, _ => .ok ⟨none, controller, handoff⟩
  | .receiving operation =>
    match handoff.acquire? operation.command with
    | none => .ok ⟨none, controller, handoff⟩
    | some handoff => do
      let cycles ← duration operation
      return ⟨none, { controller with activity := .running operation (max cycles 1) }, handoff⟩
  | .running operation left =>
    if 1 < left then
      .ok ⟨none, { controller with activity := .running operation (left - 1) }, handoff⟩
    else
      .ok ⟨some operation, { controller with activity := .sending operation }, handoff⟩
  | .sending operation => do
    let handoff ← handoff.release operation.command
    return ⟨none, { controller with activity := .idle, completed := controller.completed + 1 }, handoff⟩

/-- One cycle: the cycle is counted if counting is on, and the sequencer moves on unless the stage is stalled. -/
def tick (handoff : Handoff) (counting : Bool) (duration : Operation → Except Fault Nat) :
    Except Fault Advance :=
  let controller :=
    if counting then { controller with cycles := controller.cycles.count controller.activity.state }
    else controller
  if controller.stalled then .ok ⟨none, controller, handoff⟩
  else controller.advance handoff duration

end Controller

end BitSerial
