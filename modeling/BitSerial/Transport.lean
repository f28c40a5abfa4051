import BitSerial.Command

/-! # Command transport

Six streams lead from the host to a device: tokens and commands for each of the three stages. A transport is any state
machine that says whether the queue of a stream is full and takes entries. Asking may change its state, because a
device goes on working while it is asked. Whoever pushes has to ask first; a push into a full queue is the pusher's
mistake.

An accelerator is a transport that a host can also switch, reset and read out, which is all that a run needs of a
device.
-/

namespace BitSerial

/-- A stream from the host to a device. -/
inductive Stream where
  | token (stage : Stage)
  | command (stage : Stage)
  deriving DecidableEq, Repr

/-- All streams, in the order in which they are visited. -/
def Stream.all : List Stream :=
  [.token .fetch, .command .fetch, .token .execute, .command .execute, .token .result, .command .result]

theorem Stream.mem_all (stream : Stream) : stream ∈ all := by
  rcases stream with (_ | _ | _) | (_ | _ | _) <;> decide

/-- One entry of a stream. The stage of a command follows from the command. -/
inductive Entry where
  | token (stage : Stage) (token : Token)
  | command (command : Command)
  deriving DecidableEq, Repr

/-- The stream that an entry belongs to. -/
def Entry.stream : Entry → Stream
  | .token stage _ => .token stage
  | .command entry => .command entry.stage

/-- A state machine that takes the entries of the six streams. -/
class Transport (σ : Type) where
  /-- Whether the queue of a stream is full. -/
  poll : Stream → σ → Except Fault (Bool × σ)
  /-- Takes an entry. -/
  push : Entry → σ → Except Fault σ

/-- A transport with the registers that a run uses. Reading them may change the state, as asking does. -/
class Accelerator (σ : Type) extends Transport σ where
  /-- The operations queued on a stage or in flight. -/
  outstanding : Stage → σ → Except Fault (Nat × σ)
  /-- Enables and disables the stages. -/
  setEnabled : PerStage Bool → σ → Except Fault σ
  /-- Turns the counting of cycles on or off. -/
  setCounting : Bool → σ → Except Fault σ
  /-- The cycles that a stage spent in a controller state. -/
  stateCycles : Stage → ControlState → σ → Except Fault (Nat × σ)
  /-- The global cycle counter. -/
  cycleCount : σ → Except Fault (Nat × σ)
  /-- Drops all queued and unfinished work. -/
  reset : σ → σ

/-- One value for each stream. -/
structure PerStream (α : Type) where
  tokens : PerStage α
  commands : PerStage α
  deriving DecidableEq, Repr

namespace PerStream

variable {α : Type}

/-- The value of one stream. -/
def get (family : PerStream α) : Stream → α
  | .token stage => family.tokens.get stage
  | .command stage => family.commands.get stage

/-- Replaces the value of one stream. -/
def set (family : PerStream α) (value : α) : Stream → PerStream α
  | .token stage => { family with tokens := family.tokens.set value stage }
  | .command stage => { family with commands := family.commands.set value stage }

@[simp] theorem get_set_self (family : PerStream α) (value : α) (stream : Stream) :
    (family.set value stream).get stream = value := by
  cases stream <;> simp [get, set]

theorem get_set_of_ne (family : PerStream α) (value : α) {stream other : Stream} (h : other ≠ stream) :
    (family.set value stream).get other = family.get other := by
  cases stream <;> cases other <;> simp_all [get, set, PerStage.get_set_of_ne]

end PerStream

/-- A transport that recovers from every push for a fixed number of polls, and remembers what it was asked and what it
took. -/
structure PacedTransport where
  /-- The polls for which a stream reports full after a push. -/
  recovery : PerStream Nat
  /-- The polls for which a stream still reports full. -/
  busy : PerStream Nat
  /-- All polls so far. -/
  polls : Nat
  /-- The entries taken, the latest first. -/
  taken : List Entry
  deriving Repr

namespace PacedTransport

/-- A poll of a busy stream answers full and shortens its recovery by one. -/
def poll (transport : PacedTransport) (stream : Stream) : Bool × PacedTransport :=
  let transport := { transport with polls := transport.polls + 1 }
  match transport.busy.get stream with
  | 0 => (false, transport)
  | left + 1 => (true, { transport with busy := transport.busy.set left stream })

/-- A push starts the recovery of its stream. -/
def push (transport : PacedTransport) (entry : Entry) : PacedTransport :=
  { transport with
    busy := transport.busy.set (transport.recovery.get entry.stream) entry.stream
    taken := entry :: transport.taken }

instance : Transport PacedTransport where
  poll stream transport := .ok (transport.poll stream)
  push entry transport := .ok (transport.push entry)

end PacedTransport

end BitSerial
