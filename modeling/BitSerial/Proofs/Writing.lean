import BitSerial.Schedule
import BitSerial.Proofs.Tracking

/-! # How a schedule is written

A schedule that was written is a chain of steps: the tracker goes from step to step through the whole nest, whatever
output tile a step belongs to, and each step is written from what was on chip before it. Result instructions follow
one another in the same way. From the chain every instruction can be read off by its position.
-/

namespace BitSerial

/-- A number below a unit is what a multiple of the unit leaves over. -/
theorem div_mod_of_lt (quotient : Nat) {unit rest : Nat} (h : rest < unit) :
    (quotient * unit + rest) / unit = quotient ∧ (quotient * unit + rest) % unit = rest := by
  constructor
  · rw [Nat.mul_comm, Nat.mul_add_div (Nat.zero_lt_of_lt h), Nat.div_eq_of_lt h, Nat.add_zero]
  · rw [Nat.mul_comm, Nat.mul_add_mod, Nat.mod_eq_of_lt h]

/-- Two digits are below the product of their bounds. -/
theorem mul_add_lt_mul {high low highs lows : Nat} (hhigh : high < highs) (hlow : low < lows) :
    high * lows + low < highs * lows :=
  calc high * lows + low < high * lows + lows := Nat.add_lt_add_left hlow _
    _ = (high + 1) * lows := (Nat.succ_mul _ _).symm
    _ ≤ highs * lows := Nat.mul_le_mul_right _ hhigh

/-- A list of things done one after the other, from a position on, each taking one state to the next. -/
inductive Chain {α β : Type} (link : Nat → β → α → β → Prop) : Nat → β → List α → β → Prop where
  | nil {position : Nat} {state : β} : Chain link position state [] state
  | cons {position : Nat} {state next last : β} {first : α} {rest : List α} (hfirst : link position state first next)
      (hrest : Chain link (position + 1) next rest last) : Chain link position state (first :: rest) last

namespace Chain

variable {α α' β β' : Type} {link : Nat → β → α → β → Prop} {position : Nat} {state middle last : β}
  {list rest : List α}

theorem append (hlist : Chain link position state list middle)
    (hrest : Chain link (position + list.length) middle rest last) :
    Chain link position state (list ++ rest) last := by
  induction hlist with
  | nil => exact hrest
  | @cons position _ _ _ _ tail hfirst _ ih =>
    refine .cons hfirst (ih ?_)
    rw [List.length_cons] at hrest
    rwa [Nat.add_assoc, Nat.add_comm 1]

/-- Links may be taken for weaker ones, between what is seen of the states. -/
theorem map {link' : Nat → β' → α' → β' → Prop} {offset : Nat} (view : β → β') (f : α → α')
    (h : Chain link position state list last)
    (hlink : ∀ index < list.length, ∀ state first next, link (position + index) state first next →
      link' (offset + index) (view state) (f first) (view next)) :
    Chain link' offset (view state) (list.map f) (view last) := by
  induction h generalizing offset with
  | nil => exact .nil
  | cons hfirst _ ih =>
    refine .cons (hlink 0 (Nat.succ_pos _) _ _ _ hfirst) (ih fun index hindex state first next hnext => ?_)
    have := hlink (index + 1) (Nat.succ_lt_succ hindex) state first next
    rw [Nat.add_comm index 1, ← Nat.add_assoc, ← Nat.add_assoc] at this
    exact this hnext

/-- What no link changes is the same at both ends. -/
theorem keep {γ : Type} (h : Chain link position state list last) (view : β → γ)
    (hlink : ∀ position state first next, link position state first next → view next = view state) :
    view last = view state := by
  induction h with
  | nil => rfl
  | cons hfirst _ ih => rw [ih, hlink _ _ _ _ hfirst]

/-- The states of a chain, by the number of things done before them. -/
theorem states (h : Chain link position state list last) :
    ∃ before : Nat → β, before 0 = state ∧ before list.length = last ∧
      ∀ index (hindex : index < list.length), link (position + index) (before index) list[index] (before (index + 1)) := by
  induction h with
  | nil => exact ⟨fun _ => _, rfl, rfl, fun _ hindex => absurd hindex (Nat.not_lt_zero _)⟩
  | @cons position state next last first rest hfirst _ ih =>
    obtain ⟨before, hzero, hlast, hlink⟩ := ih
    refine ⟨fun index => index.casesOn state before, rfl, hlast, fun index hindex => ?_⟩
    cases index with
    | zero =>
      change link position state first (before 0)
      rwa [hzero]
    | succ index =>
      have := hlink index (Nat.lt_of_succ_lt_succ hindex)
      rwa [Nat.add_assoc, Nat.add_comm 1] at this

end Chain

/-- The bit plane that a step needs of an operand. -/
def StepIndex.plane (index : StepIndex) : Operand → Nat
  | .lhs => index.lhsPlane
  | .rhs => index.rhsPlane

/-- The row tile that an output tile needs of an operand. -/
def LoopNest.rowTile (nest : LoopNest) : Operand → Nat → Nat
  | .lhs => nest.lhsTile
  | .rhs => nest.rhsTile

namespace Layout

section Steps

variable (layout : Layout)

/-- The address of the tile that a step of an output tile needs of an operand. -/
def neededAddress (operand : Operand) (output step : Nat) : Except Fault Nat :=
  let index := layout.nest.stepIndex step
  layout.tileAddress operand (index.plane operand) (layout.nest.rowTile operand output) index.common

def stepSlot (output step : Nat) : Nat := (output * layout.nest.stepCount + step) % operandSlots

/-- The tile index of a step of an output tile, in 32-bit words. -/
def tileIndex (output step : Nat) : TileIndex :=
  ⟨Word32.low (layout.nest.lhsTile output), Word32.low (layout.nest.rhsTile output),
    Word32.low (layout.nest.stepIndex step).common⟩

def fetchCommand (slot : Nat) (blocks : PerOperand (Option FetchBlock)) : FetchCommand :=
  { slot, blocks, segmentWords := Word32.low layout.plan.bandStripes }

/-- The instructions of a step with given transfers. -/
def stepWith (bandPairs output step : Nat) (blocks : PerOperand (Option FetchBlock)) : Step :=
  let command := layout.fetchCommand (layout.stepSlot output step) blocks
  { fetch := ⟨command, ⟨layout.tileIndex output step, command.transfers⟩⟩
    execute := ⟨layout.executeCommand output step (layout.stepSlot output step),
      ⟨layout.tileIndex output step, bandPairs⟩⟩ }

/-- How a step is written: both tiles are asked for, and what is not on chip is transferred, aligned. -/
structure StepWritten (output step : Nat) (addresses : PerOperand Nat) (blocks : PerOperand (Option FetchBlock))
    (start middle last : Residency) (bytes : Nat) : Prop where
  address : ∀ operand, layout.neededAddress operand output step = .ok (addresses.get operand)
  lhs : layout.transfer? .lhs (layout.stepSlot output step) addresses.lhs start = .ok (blocks.lhs, middle)
  rhs : layout.transfer? .rhs (layout.stepSlot output step) addresses.rhs middle = .ok (blocks.rhs, last)
  aligned : ∀ operand, checkTransfer (layout.tileIndex output step) operand (blocks.get operand) = .ok ()
  bytes : (layout.fetchCommand (layout.stepSlot output step) blocks).bytes = .ok bytes

/-- One step of the chain of steps: a position of the whole nest, and what is on chip and was fetched before and after
it. -/
def StepLink (bandPairs position : Nat) (before : Residency × Nat) (written : Step) (after : Residency × Nat) : Prop :=
  ∃ addresses blocks middle bytes,
    layout.StepWritten (position / layout.nest.stepCount) (position % layout.nest.stepCount) addresses blocks before.1
        middle after.1 bytes ∧
      after.2 = before.2 + bytes ∧
      written = layout.stepWith bandPairs (position / layout.nest.stepCount) (position % layout.nest.stepCount) blocks

/-- One step of the chain of result instructions: an output tile, and the bytes written before and after it. -/
def ResultLink (bandPairs output : Nat) (before : Nat) (written : Instruction ResultCommand) (after : Nat) : Prop :=
  ∃ bytes, layout.resultCommand output = .ok written.command ∧
    (written.command.address % elementBytes = 0 ∧ written.command.strideBytes % elementBytes = 0) ∧
    written.command.bytes = .ok bytes ∧ after = before + bytes ∧
    written.token =
      ⟨⟨Word32.low (layout.nest.lhsTile output), Word32.low (layout.nest.rhsTile output), 0⟩, bandPairs⟩

/-- How a schedule is written, from what is on chip before it to what is on chip after it. -/
structure ScheduleWritten (schedule : Schedule) (start last : Residency) (bandPairs : Nat) (steps : List Step)
    (results : List (Instruction ResultCommand)) : Prop where
  nest : schedule.nest = layout.nest
  fetch : schedule.fetch = steps.map (·.fetch)
  execute : schedule.execute = steps.map (·.execute)
  result : announceTotal layout.gemm.resultBytes results = .ok schedule.result
  steps_length : steps.length = layout.nest.outputCount * layout.nest.stepCount
  results_length : results.length = layout.nest.outputCount
  steps_chain : Chain (layout.StepLink bandPairs) 0 (start, 0) steps (last, schedule.traffic.fetchBytes)
  results_chain : Chain (layout.ResultLink bandPairs) 0 0 results schedule.traffic.writeBytes

end Steps

variable {layout : Layout}

theorem writeStep_eq_ok_iff {bandPairs output step : Nat} {progress next : Progress} {written : Step} :
    layout.writeStep bandPairs output step progress = .ok (written, next) ↔
      ∃ addresses blocks middle bytes,
        layout.StepWritten output step addresses blocks progress.residency middle next.residency bytes ∧
          progress.traffic.fetchBytes + bytes < Word64.size ∧
          next.traffic = { progress.traffic with fetchBytes := progress.traffic.fetchBytes + bytes } ∧
          written = layout.stepWith bandPairs output step blocks := by
  unfold writeStep
  simp only [bind_eq_ok_iff, pure_eq_ok_iff, lift_eq_ok_iff, Prod.exists, Word64.add_eq_ok_iff, Prod.mk.injEq]
  constructor
  · rintro ⟨lhsAddress, hlhsAddress, rhsAddress, hrhsAddress, lhs, middle, hlhs, rhs, last, hrhs, _, hlhsAligned, _,
      hrhsAligned, bytes, hbytes, _, ⟨hfits, rfl⟩, rfl, rfl⟩
    refine ⟨⟨lhsAddress, rhsAddress⟩, ⟨lhs, rhs⟩, middle, bytes, ⟨?_, hlhs, hrhs, ?_, hbytes⟩, hfits, rfl, rfl⟩
    · rintro (_ | _)
      · exact hlhsAddress
      · exact hrhsAddress
    · rintro (_ | _)
      · exact hlhsAligned
      · exact hrhsAligned
  · rintro ⟨addresses, blocks, middle, bytes, ⟨haddress, hlhs, hrhs, haligned, hbytes⟩, hfits, htraffic, rfl⟩
    refine ⟨addresses.lhs, haddress .lhs, addresses.rhs, haddress .rhs, blocks.lhs, middle, hlhs, blocks.rhs,
      next.residency, hrhs, (), haligned .lhs, (), haligned .rhs, bytes, hbytes, _, ⟨hfits, rfl⟩, rfl, ?_⟩
    rw [← htraffic]

theorem writeResult_eq_ok_iff {bandPairs output : Nat} {progress next : Progress}
    {written : Instruction ResultCommand} :
    layout.writeResult bandPairs output progress = .ok (written, next) ↔
      progress.traffic.writeBytes + (next.traffic.writeBytes - progress.traffic.writeBytes) < Word64.size ∧
        next.residency = progress.residency ∧ next.traffic.fetchBytes = progress.traffic.fetchBytes ∧
        layout.ResultLink bandPairs output progress.traffic.writeBytes written next.traffic.writeBytes := by
  unfold writeResult ResultLink
  simp only [bind_eq_ok_iff, pure_eq_ok_iff, lift_eq_ok_iff, demandShape_eq_ok_iff, Word64.add_eq_ok_iff,
    Prod.mk.injEq]
  constructor
  · rintro ⟨command, hcommand, _, haligned, bytes, hbytes, _, ⟨hfits, rfl⟩, rfl, rfl⟩
    exact ⟨by simpa using hfits, rfl, rfl, bytes, hcommand, haligned, hbytes, rfl, rfl⟩
  · rintro ⟨hfits, hresidency, hfetched, bytes, hcommand, haligned, hbytes, hwritten, htoken⟩
    obtain ⟨command, token⟩ := written
    obtain ⟨residency, fetchBytes, writeBytes⟩ := next
    cases hresidency
    cases hfetched
    cases hwritten
    cases htoken
    exact ⟨command, hcommand, (), haligned, bytes, hbytes, _, ⟨by simpa using hfits, rfl⟩, rfl, rfl⟩

/-- What is written position by position is a chain. -/
theorem writeEach_chain {α : Type} {write : Nat → Progress → Except Failure (α × Progress)} {count position : Nat}
    {progress last : Progress} {list : List α} (h : writeEach write count position progress [] = .ok (list, last)) :
    list.length = count ∧
      Chain (fun position progress written next => write position progress = .ok (written, next)) position progress
        list last := by
  induction count generalizing position progress list with
  | zero =>
    rw [writeEach_zero] at h
    cases h
    exact ⟨rfl, .nil⟩
  | succ count ih =>
    rw [writeEach_succ] at h
    simp only [bind_eq_ok_iff, pure_eq_ok_iff, Prod.exists] at h
    obtain ⟨written, next, hwrite, rest, end_, hrest, h⟩ := h
    cases h
    obtain ⟨hlength, hchain⟩ := ih hrest
    exact ⟨by rw [List.length_cons, hlength], .cons hwrite hchain⟩

/-- The links of an output tile are those of the whole nest, at the positions that belong to it. -/
theorem stepLink_of_writeStep {bandPairs output step : Nat} (hstep : step < layout.nest.stepCount)
    {progress next : Progress} {written : Step}
    (h : layout.writeStep bandPairs output step progress = .ok (written, next)) :
    layout.StepLink bandPairs (output * layout.nest.stepCount + step)
      (progress.residency, progress.traffic.fetchBytes) written (next.residency, next.traffic.fetchBytes) := by
  obtain ⟨addresses, blocks, middle, bytes, hwritten, _, htraffic, rfl⟩ := writeStep_eq_ok_iff.mp h
  obtain ⟨houtput, hwithin⟩ := div_mod_of_lt output hstep
  unfold StepLink
  rw [houtput, hwithin]
  exact ⟨addresses, blocks, middle, bytes, hwritten, by rw [htraffic], rfl⟩

theorem writeStep_writeBytes {bandPairs output step : Nat} {progress next : Progress} {written : Step}
    (h : layout.writeStep bandPairs output step progress = .ok (written, next)) :
    next.traffic.writeBytes = progress.traffic.writeBytes := by
  obtain ⟨_, _, _, _, _, _, htraffic, _⟩ := writeStep_eq_ok_iff.mp h
  rw [htraffic]

/-- An output tile is its steps and then its result instruction. -/
theorem writeOutput_chain {bandPairs output : Nat} {progress next : Progress} {written : Output}
    (h : layout.writeOutput bandPairs output progress = .ok (written, next)) :
    written.steps.length = layout.nest.stepCount ∧
      Chain (layout.StepLink bandPairs) (output * layout.nest.stepCount)
        (progress.residency, progress.traffic.fetchBytes) written.steps (next.residency, next.traffic.fetchBytes) ∧
      layout.ResultLink bandPairs output progress.traffic.writeBytes written.result next.traffic.writeBytes := by
  unfold writeOutput at h
  simp only [bind_eq_ok_iff, pure_eq_ok_iff, Prod.exists, Prod.mk.injEq] at h
  obtain ⟨steps, middle, hsteps, result, last, hresult, rfl, rfl⟩ := h
  obtain ⟨hlength, hchain⟩ := writeEach_chain hsteps
  obtain ⟨_, hresidency, hfetched, hlink⟩ := writeResult_eq_ok_iff.mp hresult
  refine ⟨hlength, ?_, ?_⟩
  · rw [hresidency, hfetched]
    rw [← List.map_id steps]
    refine hchain.map (fun progress => (progress.residency, progress.traffic.fetchBytes)) id ?_
    intro index hindex state first after hwrite
    rw [Nat.zero_add] at hwrite
    exact stepLink_of_writeStep (hlength ▸ hindex) hwrite
  · have hwriteBytes : middle.traffic.writeBytes = progress.traffic.writeBytes :=
      hchain.keep (·.traffic.writeBytes) fun _ _ _ _ => writeStep_writeBytes
    rwa [hwriteBytes] at hlink

/-- The steps of the output tiles, one after the other, are one chain, and so are the result instructions. -/
theorem outputs_chain {bandPairs position : Nat} {progress last : Progress} {outputs : List Output}
    (h : Chain (fun output progress written next => layout.writeOutput bandPairs output progress = .ok (written, next))
      position progress outputs last) :
    (outputs.flatMap (·.steps)).length = outputs.length * layout.nest.stepCount ∧
      Chain (layout.StepLink bandPairs) (position * layout.nest.stepCount)
        (progress.residency, progress.traffic.fetchBytes) (outputs.flatMap (·.steps))
        (last.residency, last.traffic.fetchBytes) ∧
      Chain (layout.ResultLink bandPairs) position progress.traffic.writeBytes (outputs.map (·.result))
        last.traffic.writeBytes := by
  induction h with
  | nil => exact ⟨by simp, .nil, .nil⟩
  | @cons position progress next last first rest hfirst _ ih =>
    obtain ⟨hlength, hsteps, hresult⟩ := writeOutput_chain hfirst
    obtain ⟨hlengthRest, hstepsRest, hresultsRest⟩ := ih
    refine ⟨?_, ?_, .cons hresult hresultsRest⟩
    · rw [List.flatMap_cons, List.length_append, hlength, hlengthRest, List.length_cons, Nat.succ_mul, Nat.add_comm]
    · rw [List.flatMap_cons]
      refine hsteps.append ?_
      rwa [hlength, ← Nat.succ_mul]

/-- What is written, with the plan and the pairs of bands that every instruction names. -/
theorem schedule_written_for {schedule : Schedule} {start last : Residency}
    (h : layout.schedule start = .ok (schedule, last)) :
    schedule.plan = layout.plan ∧ ∃ bandPairs steps results,
      Word64.mul layout.plan.lhs.tileBands layout.plan.rhs.tileBands = .ok bandPairs ∧
      layout.ScheduleWritten schedule start last (Word32.low bandPairs) steps results := by
  unfold Layout.schedule at h
  simp only [bind_eq_ok_iff, pure_eq_ok_iff, lift_eq_ok_iff, Prod.exists, Prod.mk.injEq] at h
  obtain ⟨bandPairs, hbandPairs, outputs, progress, houtputs, result, hresult, rfl, rfl⟩ := h
  obtain ⟨hlength, hchain⟩ := writeEach_chain houtputs
  obtain ⟨hstepsLength, hsteps, hresults⟩ := outputs_chain hchain
  rw [Nat.zero_mul] at hsteps
  exact ⟨rfl, bandPairs, outputs.flatMap (·.steps), outputs.map (·.result), hbandPairs, rfl, rfl, rfl, hresult,
    hstepsLength.trans (by rw [hlength]), by rw [List.length_map, hlength], hsteps, hresults⟩

/-- A schedule that was written, was written step by step. -/
theorem schedule_written {schedule : Schedule} {start last : Residency}
    (h : layout.schedule start = .ok (schedule, last)) :
    ∃ bandPairs steps results, layout.ScheduleWritten schedule start last bandPairs steps results := by
  obtain ⟨_, bandPairs, steps, results, _, hwritten⟩ := schedule_written_for h
  exact ⟨_, steps, results, hwritten⟩

end Layout

end BitSerial
