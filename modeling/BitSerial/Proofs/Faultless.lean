import BitSerial.Proofs.Traffic

/-! # Devices that do not fault

A device computes with machine words, and a sum or a product that does not fit its word ends everything. While a
schedule is streamed this does not happen: the regions are few, the rows of every output tile lie in memory, and the
statistics are assumed to have room for the bytes of the schedule.
-/

namespace BitSerial

/-- A command whose sizes and addresses fit the words of a device. -/
def Command.Fits : Command → Prop
  | .fetch command => (Command.fetch command).bytesRead < Word64.size
  | .execute _ => True
  | .result command => (Command.result command).bytesWritten < Word64.size ∧ ∀ row < command.rhsRows,
      command.address + row * command.strideBytes + command.rowBytes < Word64.size

namespace Device

variable (device : Device)

theorem duration_total {operation : Operation} (h : operation.command.Fits) :
    ∃ cycles, device.duration operation = .ok cycles := by
  unfold duration
  cases hcommand : operation.command with
  | fetch command =>
    rw [hcommand] at h
    exact bind_total ⟨_, FetchCommand.bytes_eq_ok_iff.mpr ⟨h, rfl⟩⟩ fun _ _ => ⟨_, rfl⟩
  | execute command => exact ⟨_, rfl⟩
  | result command =>
    rw [hcommand] at h
    exact bind_total ⟨_, ResultCommand.bytes_eq_ok_iff.mpr ⟨h.1, rfl⟩⟩ fun _ _ => ⟨_, rfl⟩

theorem clearRows_total {address strideBytes rowBytes count position : Nat} (memory : Memory)
    (h : ∀ row, position ≤ row → row < position + count → address + row * strideBytes + rowBytes < Word64.size) :
    ∃ after, clearRows address strideBytes rowBytes count position memory = .ok after := by
  induction count generalizing position memory with
  | zero => exact ⟨memory, rfl⟩
  | succ count ih =>
    have hrow := h position (Nat.le_refl _) (by omega)
    unfold clearRows
    refine bind_total ⟨_, Word64.mul_eq_ok_iff.mpr ⟨by omega, rfl⟩⟩ fun _ hoffset => ?_
    obtain ⟨_, rfl⟩ := Word64.mul_eq_ok_iff.mp hoffset
    refine bind_total ⟨_, Word64.add_eq_ok_iff.mpr ⟨by omega, rfl⟩⟩ fun _ hstart => ?_
    obtain ⟨_, rfl⟩ := Word64.add_eq_ok_iff.mp hstart
    refine bind_total ⟨_, if_pos (.inr hrow)⟩ fun cleared _ => ?_
    exact ih cleared fun row hfrom hto => h row (Nat.le_of_succ_le hfrom) (by omega)

/-- The end of an operation is no fault if the statistics have room for what it moves. -/
theorem complete_total {operation : Operation} (h : operation.command.Fits)
    (hread : device.statistics.bytesRead + operation.command.bytesRead < Word64.size)
    (hwritten : device.statistics.bytesWritten + operation.command.bytesWritten < Word64.size) :
    ∃ after, device.complete operation = .ok after := by
  unfold complete
  cases hcommand : operation.command with
  | fetch command =>
    rw [hcommand] at h hread
    refine bind_total ⟨_, FetchCommand.bytes_eq_ok_iff.mpr ⟨h, rfl⟩⟩ fun bytes hbytes => ?_
    obtain ⟨_, rfl⟩ := FetchCommand.bytes_eq_ok_iff.mp hbytes
    exact bind_total ⟨_, Word64.add_eq_ok_iff.mpr ⟨hread, rfl⟩⟩ fun _ _ => ⟨_, rfl⟩
  | execute command => exact ⟨device, rfl⟩
  | result command =>
    rw [hcommand] at h hwritten
    refine bind_total (clearRows_total device.memory fun row _ hrow => ?_) fun _ _ => ?_
    · rw [Nat.zero_add] at hrow
      exact h.2 row hrow
    refine bind_total ⟨_, ResultCommand.bytes_eq_ok_iff.mpr ⟨h.1, rfl⟩⟩ fun bytes hbytes => ?_
    obtain ⟨_, rfl⟩ := ResultCommand.bytes_eq_ok_iff.mp hbytes
    exact bind_total ⟨_, Word64.add_eq_ok_iff.mpr ⟨hwritten, rfl⟩⟩ fun _ _ => ⟨_, rfl⟩

end Device

/-- No count of regions exceeds the regions that there are. -/
structure Handoff.Few (handoff : Handoff) : Prop where
  operandFree : handoff.operandFree ≤ operandSlots
  operandFull : handoff.operandFull ≤ operandSlots
  resultFree : handoff.resultFree ≤ resultSlots
  resultFull : handoff.resultFull ≤ resultSlots

theorem Handoff.Few.release_total {handoff : Handoff} (h : handoff.Few) (command : Command) :
    ∃ after, handoff.release command = .ok after := by
  have hroom {count : Nat} (hcount : count ≤ 2) : ∃ found, Word64.add count 1 = .ok found :=
    ⟨_, Word64.add_eq_ok_iff.mpr ⟨by unfold Word64.size; omega, rfl⟩⟩
  cases command with
  | fetch command => exact bind_total (hroom h.operandFull) fun _ _ => ⟨_, rfl⟩
  | execute command =>
    refine bind_total (hroom h.operandFree) fun _ _ => ?_
    split
    · exact bind_total (hroom h.resultFull) fun _ _ => ⟨_, rfl⟩
    · exact ⟨_, rfl⟩
  | result command => exact bind_total (hroom h.resultFree) fun _ _ => ⟨_, rfl⟩

/-- A stage does not fault if its operation fits and the regions are few. -/
theorem Controller.tick_total {controller : Controller} {handoff : Handoff} {counting : Bool}
    {duration : Operation → Except Fault Nat} (hfew : handoff.Few)
    (hduration : ∀ operation, controller.activity.operation? = some operation →
      ∃ cycles, duration operation = .ok cycles) :
    ∃ found, controller.tick handoff counting duration = .ok found := by
  change ∃ found, (if (controller.counted counting).stalled then _
    else (controller.counted counting).advance handoff duration) = .ok found
  split
  · exact ⟨_, rfl⟩
  · rw [← controller.counted_activity counting] at hduration
    generalize controller.counted counting = current at hduration
    unfold advance
    cases hactivity : current.activity with
    | idle =>
      dsimp only
      split <;> exact ⟨_, rfl⟩
    | receiving operation =>
      dsimp only
      split
      · exact ⟨_, rfl⟩
      · exact bind_total (hduration operation (by rw [hactivity]; rfl)) fun _ _ => ⟨_, rfl⟩
    | running operation left =>
      dsimp only
      split <;> exact ⟨_, rfl⟩
    | sending operation => exact bind_total (hfew.release_total operation.command) fun _ _ => ⟨_, rfl⟩

/-- The turn of a stage does not fault if its operation fits, the regions are few, and the statistics have room. -/
theorem Device.tickStage_total {device : Device} {stage : Stage} (hfew : device.handoff.Few)
    (hfits : ∀ operation, (device.stages.get stage).activity.operation? = some operation → operation.command.Fits)
    (hroom : ∀ operation, device.finishing? stage = some operation →
      device.statistics.bytesRead + operation.command.bytesRead < Word64.size ∧
        device.statistics.bytesWritten + operation.command.bytesWritten < Word64.size) :
    ∃ after, device.tickStage stage = .ok after := by
  unfold tickStage
  split
  next hon =>
    refine bind_total (Controller.tick_total hfew fun operation hflight => device.duration_total (hfits operation hflight))
      fun found hfound => ?_
    have hmove := Controller.tick_move _ hfound
    have hfinished : found.finished = device.finishing? stage := by
      rw [hmove.finished_eq, finishing?_counted, finishing?, if_pos hon]
    dsimp only
    split
    · exact ⟨_, rfl⟩
    next operation hoperation =>
      obtain ⟨hread, hwritten⟩ := hroom operation (hfinished ▸ hoperation)
      exact complete_total _ (hfits operation (device.finishing?_operation (hfinished ▸ hoperation))) hread hwritten
  · exact ⟨device, rfl⟩

/-- The regions of a flow of a schedule are few. -/
theorem Flow.few {schedule : Schedule} {steps : Nat} {first position : Stage → Nat} {left : Backlog} {device : Device}
    (hrotates : schedule.Rotates steps)
    (h : Flow schedule.program first left device.stages device.handoff position) : device.handoff.Few := by
  obtain ⟨hoperandFree, hoperandFull, hresultFree, hresultFull, -, -⟩ := h.spread hrotates
  have hopened : position .execute / steps ≤
      (position .execute + (device.stages.get .execute).activity.held + (steps - 1)) / steps :=
    Nat.div_le_div_right (by omega)
  constructor <;> omega

/-- The first operations of a program move no more than the program. -/
theorem moved_take_le (bytes : Command → Nat) (program : List Operation) (count : Nat) :
    moved bytes (program.take count) ≤ moved bytes program := by
  calc _ ≤ moved bytes (program.take count) + moved bytes (program.drop count) := Nat.le_add_right _ _
    _ = moved bytes (program.take count ++ program.drop count) := (moved_append _ _ _).symm
    _ = _ := by rw [List.take_append_drop]

/-- A schedule that a device can do without a fault. -/
structure Bearable (programs : Stage → List Operation) (device : Device) : Prop where
  fits : ∀ stage, ∀ operation ∈ programs stage, operation.command.Fits
  read : device.statistics.bytesRead + moved Command.bytesRead (programs .fetch) < Word64.size
  written : device.statistics.bytesWritten + moved Command.bytesWritten (programs .result) < Word64.size

namespace Reached

variable {programs : Stage → List Operation} {start recorded : Recorded} {left : Backlog}

/-- What the operations moved that are done, with one that is about to be done, is at most what the program moves. -/
theorem moved_le (hstaged : Staged programs) (hrest : start.device.Quiescent)
    (h : Reached programs start left recorded) {bytes : Command → Nat} {stage turned : Stage}
    (hbytes : ∀ command : Command, command.stage ≠ stage → bytes command = 0) {operation : Operation}
    (hfinishing : recorded.device.finishing? turned = some operation) :
    moved bytes (finishedOf stage recorded.trail) + bytes operation.command ≤
      moved bytes (finishedOf stage start.trail) + moved bytes (programs stage) := by
  rw [h.finished hstaged hrest, moved_append, Nat.add_assoc]
  refine Nat.add_le_add_left ?_ _
  have hflow := h.flow hstaged hrest
  have hflight := recorded.device.finishing?_operation hfinishing
  have hstage := hflow.operation_staged hstaged hflight
  by_cases hsame : turned = stage
  · subst hsame
    have hat := (hflow.lane turned).inFlight operation hflight
    -- what finishes next is the operation after those that were finished
    rw [Device.Turn.worked_of_finishing hfinishing, Nat.add_zero]
    have hnext := moved_take_le bytes (programs turned) (start.device.doneSince recorded.device turned + 1)
    rw [List.take_add_one, hat, Option.toList_some, moved_append] at hnext
    simpa [moved] using hnext
  · rw [hbytes operation.command (hstage ▸ hsame), Nat.add_zero]
    exact moved_take_le _ _ _

theorem turn_total (hstaged : Staged programs) (hrest : start.device.Quiescent)
    (hbearable : Bearable programs start.device) (h : Reached programs start left recorded)
    (hfew : recorded.device.handoff.Few) (stage : Stage) : ∃ after, recorded.turn stage = .ok after := by
  have hflow := h.flow hstaged hrest
  have hledger := h.ledger hstaged hrest
  refine bind_total (Device.tickStage_total hfew (fun operation hflight => ?_) fun operation hfinishing => ?_)
    fun _ _ => ⟨_, rfl⟩
  · exact hbearable.fits stage operation (List.mem_of_getElem? ((hflow.lane stage).inFlight operation hflight))
  · have hread := h.moved_le hstaged hrest (fun _ => Command.bytesRead_of_ne) hfinishing
    have hwritten := h.moved_le hstaged hrest (fun _ => Command.bytesWritten_of_ne) hfinishing
    have hledgerRead := hledger.bytesRead
    have hledgerWritten := hledger.bytesWritten
    have hroomRead := hbearable.read
    have hroomWritten := hbearable.written
    exact ⟨by omega, by omega⟩

/-- While a schedule is streamed, no cycle faults. -/
theorem tick_total {schedule : Schedule} {steps : Nat} (hrotates : schedule.Rotates steps)
    (hrest : start.device.Quiescent) (hbearable : Bearable schedule.program start.device)
    (h : Reached schedule.program start left recorded) : ∃ after, recorded.tick = .ok after := by
  have hturn {recorded : Recorded} (h : Reached schedule.program start left recorded) (stage : Stage) :
      ∃ after, recorded.turn stage = .ok after :=
    h.turn_total schedule.program_staged hrest hbearable ((h.flow schedule.program_staged hrest).few hrotates) stage
  refine bind_total (hturn h.count .fetch) fun fetched hfetch => ?_
  have hfetched := h.count.turn hfetch
  refine bind_total (hturn hfetched .execute) fun executed hexecute => ?_
  exact hturn (hfetched.turn hexecute) .result

end Reached

/-- The commands of a schedule fit, if its result does. -/
theorem Layout.ScheduleWritten.fits {layout : Layout} {schedule : Schedule} {start last : Residency}
    {bandPairs bytes : Nat} {steps : List Step} {results : List (Instruction ResultCommand)}
    (h : layout.ScheduleWritten schedule start last bandPairs steps results)
    (hcuts : layout.plan.Cuts layout.geometry layout.gemm) (hbytes : layout.gemm.resultBytes = .ok bytes)
    (hend : layout.addresses.result + bytes < Word64.size) {stage : Stage} {operation : Operation}
    (hoperation : operation ∈ schedule.program stage) : operation.command.Fits := by
  obtain ⟨position, hat⟩ := List.getElem?_of_mem hoperation
  cases stage with
  | fetch =>
    obtain ⟨instruction, hinstruction, rfl⟩ := Schedule.program_fetch_getElem? hat
    rw [h.fetch, List.getElem?_map, Option.map_eq_some_iff] at hinstruction
    obtain ⟨step, hstep, rfl⟩ := hinstruction
    obtain ⟨_, _, _, _, _, _, hwritten, _, rfl⟩ := h.steps_chain.link_getElem? hstep
    exact (FetchCommand.bytes_eq_ok_iff.mp hwritten.bytes).1
  | execute =>
    obtain ⟨instruction, _, rfl⟩ := Schedule.program_execute_getElem? hat
    trivial
  | result =>
    obtain ⟨instruction, hinstruction, rfl⟩ := Schedule.program_result_getElem? hat
    obtain ⟨_, _, written, ⟨_, _, _, hwritten, _⟩, heq⟩ := h.result_getElem? hinstruction
    refine ⟨?_, fun row hrow => ?_⟩
    · have hsame : (Command.result instruction.command).bytesWritten = (Command.result written.command).bytesWritten :=
        congrArg (fun instruction => (Command.result instruction.command).bytesWritten) heq
      change (Command.result instruction.command).bytesWritten < Word64.size
      rw [hsame]
      exact (ResultCommand.bytes_eq_ok_iff.mp hwritten).1
    · exact Nat.lt_of_le_of_lt ((h.result_rows_le hcuts hbytes hoperation rfl).2 row hrow) hend

end BitSerial
