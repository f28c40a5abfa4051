import BitSerial.Device
import BitSerial.Feed
import BitSerial.Packed
import BitSerial.Report

/-! # Sessions

A session is attached to one device for products of one shape. It owns the buffers of both operands and of the result,
and it remembers which tiles are on chip, so that a repeated run does not fetch again what has not changed.

A run writes the schedule, fills the queues while the stages are off, turns counting and the stages on, feeds the rest,
waits until the result stage has nothing left, turns everything off and reads the counters. Feeding and waiting are
loops that ask the clock and the cancellation flag each time round. What they would answer is given as `Surroundings`,
and a run that would go on for ever ends unfinished when its patience is used up.
-/

namespace BitSerial

/-- Bounds on a run. -/
structure Options where
  /-- The milliseconds after which a run is given up. -/
  timeout : Option Nat
  /-- Whether the cancellation flag is heeded. -/
  cancellable : Bool
  deriving DecidableEq, Repr

/-- What the clock and the cancellation flag say at one moment. -/
structure Reading where
  /-- Milliseconds since the run began. -/
  elapsed : Nat
  cancelled : Bool
  deriving DecidableEq, Repr

/-- What clock and flag say each time that a run asks. -/
abbrev Surroundings := Nat → Reading

namespace Surroundings

/-- No time passes, and the flag does not change. -/
def still (cancelled : Bool) : Surroundings := fun _ => ⟨0, cancelled⟩

end Surroundings

/-- Whether a run is to be given up. Cancellation comes before the deadline. -/
def Options.stop? (options : Options) (reading : Reading) (phase : RunPhase) : Option Refusal :=
  if options.cancellable ∧ reading.cancelled then some (.cancelled phase)
  else
    match options.timeout with
    | none => none
    | some timeout => if timeout ≤ reading.elapsed then some (.timedOut phase) else none

/-- The buffers of a product. -/
structure Buffers where
  lhs : Buffer
  rhs : Buffer
  result : Buffer
  deriving DecidableEq, Repr

namespace Buffers

/-- The buffer of one operand. -/
def operand (buffers : Buffers) : Operand → Buffer
  | .lhs => buffers.lhs
  | .rhs => buffers.rhs

/-- The addresses of the buffers. -/
def addresses (buffers : Buffers) : Addresses :=
  ⟨buffers.lhs.address, buffers.rhs.address, buffers.result.address⟩

end Buffers

/-- A device attached for products of one shape. -/
structure Session where
  device : Device
  /-- The geometry read when the session began. -/
  geometry : Geometry
  /-- The clock read when the session began, in MHz. -/
  clock : Float
  gemm : Gemm
  plan : TilePlan
  buffers : Buffers
  residency : Residency
  options : Options
  /-- Runs that came to their end. -/
  runs : Nat

/-- Tells faults, which end everything, from refusals, which are answers. -/
def Failure.settle {α : Type} : Except Failure α → Except Fault (Except Refusal α)
  | .ok value => .ok (.ok value)
  | .error (.fault cause) => .error cause
  | .error (.refused reason) => .ok (.error reason)

namespace Session

/-- The plan of a product on an array, if a schedule can be written for it. The schedule is tried at address zero with
nothing on chip. -/
def planFor (geometry : Geometry) (gemm : Gemm) : Except Failure TilePlan := do
  geometry.check
  let plan ← TilePlan.ofGemm geometry gemm
  let _ ← (Layout.mk geometry gemm plan ⟨0, 0, 0⟩).schedule .fresh
  return plan

/-- Cuts the three buffers of a product from device memory. If one of them fails, those before it are released. -/
def allocateBuffers (device : Device) (gemm : Gemm) :
    Except Fault (Except MemoryDefect Buffers × Device) := do
  let (lhs, device) ← device.allocate (← gemm.lhs.bytes)
  match lhs with
  | .error defect => return (.error defect, device)
  | .ok lhs =>
    let (rhs, device) ← device.allocate (← gemm.rhs.bytes)
    match rhs with
    | .error defect => return (.error defect, device.free lhs.address)
    | .ok rhs =>
      let (result, device) ← device.allocate (← gemm.resultBytes)
      match result with
      | .error defect => return (.error defect, (device.free lhs.address).free rhs.address)
      | .ok result => return (.ok ⟨lhs, rhs, result⟩, device)

/-- What attaching to a device leads to: a session, or the device again with the reason. -/
inductive Attachment where
  | attached (session : Session)
  | failed (reason : Refusal) (device : Device)

/-- Attaches to a device. The device is identified and the product planned before memory is touched. -/
def attach (device : Device) (gemm : Gemm) (options : Options) : Except Fault Attachment := do
  let (found, device) ← device.readSignature
  if found ≠ expectedSignature then
    return .failed (.deviceNotReady expectedSignature found) device
  else
    let (geometry, device) ← device.readGeometry
    match ← Failure.settle (planFor geometry gemm) with
    | .error reason => return .failed reason device
    | .ok plan =>
      let clock := device.clock
      let (buffers, device) ← allocateBuffers device gemm
      match buffers with
      | .error defect => return .failed (.deviceMemory defect) device
      | .ok buffers =>
        return .attached {
          device := device.reset
          geometry, clock, gemm, plan, buffers
          residency := .fresh
          options
          runs := 0 }

variable (session : Session)

/-- Ends a session: its buffers are released. -/
def detach : Device :=
  ((session.device.free session.buffers.lhs.address).free session.buffers.rhs.address).free
    session.buffers.result.address

/-- The product as it lies in device memory. -/
def layout : Layout := ⟨session.geometry, session.gemm, session.plan, session.buffers.addresses⟩

/-- The schedule that the next run follows, and what is on chip after it. -/
def nextSchedule : Except Failure (Schedule × Residency) := session.layout.schedule session.residency

/-- Replaces an operand. Its tiles have to be fetched again. -/
def setOperand (operand : Operand) (packed : Packed) : Except Fault (Except Refusal Unit × Session) := do
  let attached := session.gemm.operand operand
  if packed.shape ≠ attached then
    return (.error (.operandMismatch (.shape operand packed.shape attached)), session)
  else
    let needed ← attached.words
    if packed.words.length ≠ needed then
      return (.error (.operandMismatch (.words operand packed.words.length needed)), session)
    else
      let (copied, device) ← session.device.copyIn (session.buffers.operand operand).address packed.bytes
      match copied with
      | .error defect => return (.error (.deviceMemory defect), { session with device })
      | .ok () => return (.ok (), { session with device, residency := session.residency.invalidate operand })

/-- Replaces an operand by one that is all zero. The host sets memory aside for its words, but none is written. -/
def clearOperand (operand : Operand) (shape : OperandShape) : Except Fault (Except Refusal Unit × Session) := do
  let count ← Packed.zeroCount shape
  let attached := session.gemm.operand operand
  if shape ≠ attached then
    return (.error (.operandMismatch (.shape operand shape attached)), session)
  else
    let (cleared, device) ←
      session.device.clearIn (session.buffers.operand operand).address (count * wordBytes)
    match cleared with
    | .error defect => return (.error (.deviceMemory defect), { session with device })
    | .ok () => return (.ok (), { session with device, residency := session.residency.invalidate operand })

/-- Clearing an operand is replacing it by a packed operand of zeros. -/
theorem clearOperand_eq (operand : Operand) (shape : OperandShape) :
    session.clearOperand operand shape = (do session.setOperand operand (← Packed.zeroed shape)) := by
  unfold clearOperand Packed.zeroed
  cases hcount : Packed.zeroCount shape with
  | error cause => rfl
  | ok count =>
    by_cases hshape : shape = session.gemm.operand operand
    · have hwords : (session.gemm.operand operand).words = .ok count :=
        hshape ▸ (Packed.zeroCount_eq_ok_iff.1 hcount).1
      simp only [Device.clearIn_eq_copyIn, setOperand, bind, Except.bind, pure, Except.pure, hshape, hwords,
        ne_eq, not_true_eq_false, if_false, List.length_replicate, Packed.bytes_replicate]
    · simp only [setOperand, bind, Except.bind, pure, Except.pure, ne_eq, hshape, not_false_eq_true, if_true]

/-- The signed number that four bytes hold, lowest first. -/
def element (bytes : List UInt8) : Int :=
  let value := bytes.foldr (fun byte value => byte.toNat + 256 * value) 0
  if value < 0x80000000 then Int.ofNat value else Int.ofNat value - 0x100000000

/-- The elements of a padded result that belong to the product, right row by right row. -/
def elements (gemm : Gemm) (raw : Array UInt8) : List Int :=
  (List.range gemm.rhs.rows).flatMap fun row =>
    (List.range gemm.lhs.rows).map fun col =>
      let position := (row * gemm.lhs.paddedRows + col) * elementBytes
      element (raw.extract position (position + elementBytes)).toList

/-- Reads the result into a buffer of a number of elements, which the host has to set aside first. -/
def readResult (length : Nat) : Except Fault (Except Refusal (List Int) × Session) := do
  reserve (length * elementBytes)
  let needed ← Word64.mul session.gemm.lhs.rows session.gemm.rhs.rows
  if length ≠ needed then
    return (.error (.operandMismatch (.elements length needed)), session)
  else
    let (copied, device) ← session.device.copyOut session.buffers.result.address (← session.gemm.resultBytes)
    let session := { session with device }
    match copied with
    | .error defect => return (.error (.deviceMemory defect), session)
    | .ok raw => return (.ok (elements session.gemm raw.toArray), session)

/-- Resets the device and forgets what is on chip. -/
def reset : Session :=
  { session with device := session.device.reset, residency := session.residency.invalidateAll }

/-- How a loop of a run ended. -/
inductive LoopEnd where
  | done
  | stopped (reason : Refusal)
  | exhausted
  deriving DecidableEq, Repr

section Loops

variable {σ : Type} [Accelerator σ]

/-- Feeds until all is pushed. Before each pass, clock and flag are asked; the result says how often they were. -/
def feedAll (options : Options) (surroundings : Surroundings) :
    (patience asked : Nat) → Feed → σ → Except Fault (LoopEnd × Nat × Feed × σ)
  | 0, asked, feed, device => .ok (if feed.allPushed then .done else .exhausted, asked, feed, device)
  | patience + 1, asked, feed, device =>
    if feed.allPushed then .ok (.done, asked, feed, device)
    else
      match options.stop? (surroundings asked) .push with
      | some reason => .ok (.stopped reason, asked + 1, feed, device)
      | none => do
        let (feed, device) ← feed.fill device
        feedAll options surroundings patience (asked + 1) feed device

theorem feedAll_allPushed {options : Options} {surroundings : Surroundings} {patience asked : Nat} {feed : Feed}
    {device : σ} (h : feed.allPushed = true) :
    feedAll options surroundings patience asked feed device = .ok (.done, asked, feed, device) := by
  cases patience with
  | zero => rw [feedAll, if_pos h]
  | succ patience => rw [feedAll, if_pos h]

/-- Asks the result stage until it has nothing left. After each other answer, clock and flag are asked. -/
def awaitResult (options : Options) (surroundings : Surroundings) :
    (patience asked : Nat) → σ → Except Fault (LoopEnd × σ)
  | 0, _, device => .ok (.exhausted, device)
  | patience + 1, asked, device => do
    let (outstanding, device) ← Accelerator.outstanding .result device
    if outstanding = 0 then return (.done, device)
    else
      match options.stop? (surroundings asked) .completion with
      | some reason => return (.stopped reason, device)
      | none => awaitResult options surroundings patience (asked + 1) device

/-- Fills the queues with the beginning of a schedule while the stages are off, then turns counting and the stages
on. -/
def start (schedule : Schedule) (device : σ) : Except Fault (Feed × σ) := do
  let device ← Accelerator.setEnabled (.all false) device
  let (feed, device) ← (Feed.ofSchedule schedule).fill device
  let device ← Accelerator.setCounting true device
  let device ← Accelerator.setEnabled (.all true) device
  return (feed, device)

/-- Feeds what is left and waits for the result stage. -/
def work (options : Options) (surroundings : Surroundings) (patience : Nat) (feed : Feed) (device : σ) :
    Except Fault (LoopEnd × σ) := do
  let (fed, asked, _, device) ← feedAll options surroundings patience 0 feed device
  match fed with
  | .done => awaitResult options surroundings patience asked device
  | ended => return (ended, device)

/-- Reads the state counters of a stage. -/
def readStage (device : σ) (stage : Stage) : Except Fault (StateCycles × σ) := do
  let (command, device) ← Accelerator.stateCycles stage .command device
  let (run, device) ← Accelerator.stateCycles stage .run device
  let (send, device) ← Accelerator.stateCycles stage .send device
  let (receive, device) ← Accelerator.stateCycles stage .receive device
  return (⟨command, run, send, receive⟩, device)

/-- Reads all counters, the global one last. -/
def readCounters (device : σ) : Except Fault (Counters × σ) := do
  let (fetch, device) ← readStage device .fetch
  let (execute, device) ← readStage device .execute
  let (result, device) ← readStage device .result
  let (cycles, device) ← Accelerator.cycleCount device
  return (⟨cycles, ⟨fetch, execute, result⟩⟩, device)

/-- Turns the stages and counting off. -/
def halt (device : σ) : Except Fault σ := do
  let device ← Accelerator.setEnabled (.all false) device
  Accelerator.setCounting false device

/-- How a schedule was streamed: to its end, with the counters read then, or not. -/
inductive StreamEnd where
  | finished (counters : Counters)
  /-- The run was given up. -/
  | stopped (reason : Refusal)
  /-- The patience was used up. -/
  | exhausted

/-- Streams a schedule through a device. What is queued in a device whose run was given up is unknown, so it is reset. -/
def streamThrough (options : Options) (surroundings : Surroundings) (patience : Nat) (schedule : Schedule)
    (device : σ) : Except Fault (StreamEnd × σ) := do
  let (feed, device) ← start schedule device
  let (ended, device) ← work options surroundings patience feed device
  match ended with
  | .exhausted => return (.exhausted, device)
  | .stopped reason => return (.stopped reason, Accelerator.reset (← halt device))
  | .done =>
    let (counters, device) ← readCounters (← halt device)
    return (.finished counters, device)

end Loops

/-- How a run ended. -/
inductive RunEnd where
  | finished (report : Report)
  /-- The run was not begun, or it was given up. -/
  | refused (reason : Refusal)
  /-- The patience was used up. -/
  | unfinished

/-- What a session makes of a streamed schedule. A run that came through is counted and reported; after one that was
given up nothing is known to be on chip. -/
def conclude (schedule : Schedule) (ended : StreamEnd) (device : Device) : RunEnd × Session :=
  match ended with
  | .finished counters =>
    let report : Report := {
      geometry := session.geometry
      gemm := session.gemm
      counters
      traffic := schedule.traffic
      clock := session.clock
      instructions := schedule.counts }
    (.finished report, { session with device, runs := session.runs + 1 })
  | .stopped reason =>
    (.refused reason, { session with device, residency := session.residency.invalidateAll })
  | .exhausted => (.unfinished, { session with device })

/-- Streams a schedule through the device of the session. -/
def stream (schedule : Schedule) (patience : Nat) (surroundings : Surroundings) :
    Except Fault (RunEnd × Session) := do
  let (ended, device) ← streamThrough session.options surroundings patience schedule session.device
  return session.conclude schedule ended device

/-- Computes one product with the current operands. What the schedule brings on chip is remembered from the start. -/
def run (patience : Nat) (surroundings : Surroundings) : Except Fault (RunEnd × Session) := do
  match ← Failure.settle session.nextSchedule with
  | .error reason => return (.refused reason, session)
  | .ok (schedule, residency) =>
    ({ session with residency } : Session).stream schedule patience surroundings

end Session

end BitSerial
