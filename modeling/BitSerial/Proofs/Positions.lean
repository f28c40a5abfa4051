import BitSerial.Proofs.Flow
import BitSerial.Proofs.Writing

/-! # What stands where in a schedule

Operand slots go round from step to step and result slots from output tile to output tile; the first step of an output
tile takes its result slot and the last one hands it on. None of this depends on what is on chip, so it can be said of
a schedule by position alone. The counts of such steps, on which the region counts of a device rest, follow.
-/

namespace BitSerial

namespace Chain

variable {α β : Type} {link : Nat → β → α → β → Prop} {position : Nat} {state last : β} {list : List α}

/-- Every entry of a chain was linked at its position. -/
theorem link_getElem? (h : Chain link position state list last) {index : Nat} {entry : α}
    (hentry : list[index]? = some entry) : ∃ before after, link (position + index) before entry after := by
  obtain ⟨before, _, _, hlink⟩ := h.states
  obtain ⟨hindex, rfl⟩ := List.getElem?_eq_some_iff.mp hentry
  exact ⟨_, _, hlink index hindex⟩

end Chain

/-- A result instruction without the bytes that it announces. -/
def Instruction.unannounced (instruction : Instruction ResultCommand) : Instruction ResultCommand :=
  { instruction with command := { instruction.command with totalBytes := 0 } }

namespace Layout

/-- Announcing the bytes of a run changes nothing else. -/
theorem announceTotal_unannounced {totalBytes : Except Fault Nat} {program found : List (Instruction ResultCommand)}
    (h : announceTotal totalBytes program = .ok found) :
    found.map Instruction.unannounced = program.map Instruction.unannounced := by
  unfold announceTotal at h
  split at h
  next hreverse =>
    cases h
    rw [List.reverse_eq_nil_iff.mp hreverse]
  next last before hreverse =>
    simp only [bind_eq_ok_iff, pure_eq_ok_iff] at h
    obtain ⟨total, _, rfl⟩ := h
    rw [List.reverse_eq_cons_iff.mp hreverse]
    simp [Instruction.unannounced]

end Layout

/-- What the position of an instruction says about it, with a number of steps to an output tile. -/
structure Schedule.Rotates (schedule : Schedule) (steps : Nat) : Prop where
  fetch : ∀ position instruction, schedule.fetch[position]? = some instruction →
    instruction.command.slot = position % operandSlots
  execute : ∀ position instruction, schedule.execute[position]? = some instruction →
    instruction.command.operandSlot = position % operandSlots ∧
      instruction.command.resultSlot = position / steps % resultSlots ∧
      (instruction.command.clear = true ↔ position % steps = 0) ∧
      (instruction.command.commit = true ↔ position % steps + 1 = steps)
  result : ∀ position instruction, schedule.result[position]? = some instruction →
    instruction.command.slot = position % resultSlots
  fetch_length : schedule.fetch.length = schedule.execute.length
  execute_length : schedule.execute.length = schedule.result.length * steps

namespace Layout

variable {layout : Layout}

/-- The fields of a result command, as numbers without bound. -/
theorem resultCommand_eq {output : Nat} {command : ResultCommand} (h : layout.resultCommand output = .ok command) :
    command = {
      slot := output % resultSlots
      address := layout.addresses.result +
        (layout.nest.rhsTile output * layout.plan.rhs.tileRows * layout.gemm.lhs.paddedRows +
          layout.nest.lhsTile output * layout.plan.lhs.tileRows) * elementBytes
      strideBytes := layout.gemm.lhs.paddedRows * elementBytes
      lhsRows := Word32.low layout.plan.lhs.tileRows
      rhsRows := Word32.low layout.plan.rhs.tileRows
      totalBytes := 0 } := by
  simp only [resultCommand, bind_eq_ok_iff, pure_eq_ok_iff, Word64.mul_eq_ok_iff, Word64.add_eq_ok_iff] at h
  obtain ⟨_, ⟨_, rfl⟩, _, ⟨_, rfl⟩, _, ⟨_, rfl⟩, _, ⟨_, rfl⟩, _, ⟨_, rfl⟩, _, ⟨_, rfl⟩, _, ⟨_, rfl⟩, h⟩ := h
  exact h

/-- The result commands of a schedule are those of the output tiles, in order. -/
theorem ScheduleWritten.result_getElem? {schedule : Schedule} {start last : Residency} {bandPairs : Nat}
    {steps : List Step} {results : List (Instruction ResultCommand)}
    (h : layout.ScheduleWritten schedule start last bandPairs steps results) {output : Nat}
    {instruction : Instruction ResultCommand} (hat : schedule.result[output]? = some instruction) :
    ∃ before after written, layout.ResultLink bandPairs output before written after ∧
      instruction.unannounced = written.unannounced := by
  have hmap := announceTotal_unannounced h.result
  have hunannounced : (results.map Instruction.unannounced)[output]? = some instruction.unannounced := by
    rw [← hmap, List.getElem?_map, hat]
    rfl
  rw [List.getElem?_map, Option.map_eq_some_iff] at hunannounced
  obtain ⟨written, hwritten, heq⟩ := hunannounced
  obtain ⟨before, after, hlink⟩ := h.results_chain.link_getElem? hwritten
  rw [Nat.zero_add] at hlink
  exact ⟨before, after, written, hlink, heq.symm⟩

/-- But for the bytes that it announces, a result instruction is the one of its output tile. -/
theorem ScheduleWritten.result_eq {schedule : Schedule} {start last : Residency} {bandPairs : Nat}
    {steps : List Step} {results : List (Instruction ResultCommand)}
    (h : layout.ScheduleWritten schedule start last bandPairs steps results) {output : Nat}
    {instruction : Instruction ResultCommand} (hat : schedule.result[output]? = some instruction) :
    ∃ totalBytes, instruction.command = {
        slot := output % resultSlots
        address := layout.addresses.result +
          (layout.nest.rhsTile output * layout.plan.rhs.tileRows * layout.gemm.lhs.paddedRows +
            layout.nest.lhsTile output * layout.plan.lhs.tileRows) * elementBytes
        strideBytes := layout.gemm.lhs.paddedRows * elementBytes
        lhsRows := Word32.low layout.plan.lhs.tileRows
        rhsRows := Word32.low layout.plan.rhs.tileRows
        totalBytes } ∧
      instruction.token =
        ⟨⟨Word32.low (layout.nest.lhsTile output), Word32.low (layout.nest.rhsTile output), 0⟩, bandPairs⟩ := by
  obtain ⟨_, _, written, ⟨_, hwritten, _, _, _, htoken⟩, heq⟩ := h.result_getElem? hat
  have hcommand := congrArg Instruction.command heq
  have htokens : instruction.unannounced.token = written.unannounced.token := congrArg Instruction.token heq
  simp only [Instruction.unannounced, resultCommand_eq hwritten, ResultCommand.mk.injEq] at hcommand
  obtain ⟨hslot, haddress, hstride, hlhsRows, hrhsRows, _⟩ := hcommand
  refine ⟨instruction.command.totalBytes, ?_, htokens.trans htoken⟩
  rw [← hslot, ← haddress, ← hstride, ← hlhsRows, ← hrhsRows]

theorem ScheduleWritten.result_length {schedule : Schedule} {start last : Residency} {bandPairs : Nat}
    {steps : List Step} {results : List (Instruction ResultCommand)}
    (h : layout.ScheduleWritten schedule start last bandPairs steps results) :
    schedule.result.length = layout.nest.outputCount := by
  rw [← List.length_map (f := Instruction.unannounced), announceTotal_unannounced h.result, List.length_map,
    h.results_length]

/-- Every step of a schedule was written for its position in the nest. -/
theorem ScheduleWritten.stepWritten_getElem? {schedule : Schedule} {start last : Residency} {bandPairs : Nat}
    {steps : List Step} {results : List (Instruction ResultCommand)}
    (h : layout.ScheduleWritten schedule start last bandPairs steps results) {position : Nat} {step : Step}
    (hat : steps[position]? = some step) :
    ∃ addresses blocks before middle after bytes,
      layout.StepWritten (position / layout.nest.stepCount) (position % layout.nest.stepCount) addresses blocks before
          middle after bytes ∧
        step = layout.stepWith bandPairs (position / layout.nest.stepCount) (position % layout.nest.stepCount)
          blocks := by
  obtain ⟨_, _, hlink⟩ := h.steps_chain.link_getElem? hat
  rw [Nat.zero_add] at hlink
  obtain ⟨addresses, blocks, middle, bytes, hwritten, _, hstep⟩ := hlink
  exact ⟨addresses, blocks, _, middle, _, bytes, hwritten, hstep⟩

/-- The steps of a schedule are those of the nest, in order. -/
theorem ScheduleWritten.step_getElem? {schedule : Schedule} {start last : Residency} {bandPairs : Nat}
    {steps : List Step} {results : List (Instruction ResultCommand)}
    (h : layout.ScheduleWritten schedule start last bandPairs steps results) {position : Nat} {step : Step}
    (hat : steps[position]? = some step) :
    ∃ blocks, step = layout.stepWith bandPairs (position / layout.nest.stepCount) (position % layout.nest.stepCount)
      blocks := by
  obtain ⟨_, blocks, _, _, _, _, _, hstep⟩ := h.stepWritten_getElem? hat
  exact ⟨blocks, hstep⟩

/-- A fetch instruction was written for its position, together with the execute instruction at the same position. -/
theorem ScheduleWritten.fetch_eq {schedule : Schedule} {start last : Residency} {bandPairs : Nat} {steps : List Step}
    {results : List (Instruction ResultCommand)}
    (h : layout.ScheduleWritten schedule start last bandPairs steps results) {position : Nat}
    {instruction : Instruction FetchCommand} (hat : schedule.fetch[position]? = some instruction) :
    position < steps.length ∧ ∃ addresses blocks before middle after bytes,
      layout.StepWritten (position / layout.nest.stepCount) (position % layout.nest.stepCount) addresses blocks before
          middle after bytes ∧
        instruction = (layout.stepWith bandPairs (position / layout.nest.stepCount) (position % layout.nest.stepCount)
          blocks).fetch ∧
        schedule.execute[position]? = some (layout.stepWith bandPairs (position / layout.nest.stepCount)
          (position % layout.nest.stepCount) blocks).execute := by
  rw [h.fetch, List.getElem?_map, Option.map_eq_some_iff] at hat
  obtain ⟨step, hstep, rfl⟩ := hat
  obtain ⟨addresses, blocks, before, middle, after, bytes, hwritten, rfl⟩ := h.stepWritten_getElem? hstep
  refine ⟨(List.getElem?_eq_some_iff.mp hstep).1, addresses, blocks, before, middle, after, bytes, hwritten, rfl, ?_⟩
  rw [h.execute, List.getElem?_map, hstep]
  rfl

/-- An execute instruction was written for its position. -/
theorem ScheduleWritten.execute_eq {schedule : Schedule} {start last : Residency} {bandPairs : Nat} {steps : List Step}
    {results : List (Instruction ResultCommand)}
    (h : layout.ScheduleWritten schedule start last bandPairs steps results) {position : Nat}
    {instruction : Instruction ExecuteCommand} (hat : schedule.execute[position]? = some instruction) :
    position < steps.length ∧ ∃ blocks, instruction = (layout.stepWith bandPairs (position / layout.nest.stepCount)
      (position % layout.nest.stepCount) blocks).execute := by
  rw [h.execute, List.getElem?_map, Option.map_eq_some_iff] at hat
  obtain ⟨step, hstep, rfl⟩ := hat
  obtain ⟨blocks, rfl⟩ := h.step_getElem? hstep
  exact ⟨(List.getElem?_eq_some_iff.mp hstep).1, blocks, rfl⟩

theorem stepSlot_lt (output step : Nat) : layout.stepSlot output step < operandSlots := Nat.mod_lt _ (by decide)

/-- The slot of a step of the whole nest. -/
theorem stepSlot_eq (position : Nat) :
    layout.stepSlot (position / layout.nest.stepCount) (position % layout.nest.stepCount) = position % operandSlots := by
  rw [stepSlot, Nat.mul_comm, Nat.div_add_mod]

theorem ScheduleWritten.rotates {schedule : Schedule} {start last : Residency} {bandPairs : Nat}
    {steps : List Step} {results : List (Instruction ResultCommand)}
    (h : layout.ScheduleWritten schedule start last bandPairs steps results) :
    schedule.Rotates layout.nest.stepCount where
  fetch position instruction hat := by
    obtain ⟨-, _, blocks, _, _, _, _, -, rfl, -⟩ := h.fetch_eq hat
    exact stepSlot_eq position
  execute position instruction hat := by
    obtain ⟨-, blocks, rfl⟩ := h.execute_eq hat
    refine ⟨stepSlot_eq position, rfl, ?_, ?_⟩
    · simp [stepWith, executeCommand]
    · simp [stepWith, executeCommand]
  result position instruction hat := by
    obtain ⟨_, _, written, ⟨_, hcommand, _⟩, heq⟩ := h.result_getElem? hat
    have hslot : instruction.command.slot = written.command.slot :=
      congrArg (fun instruction => instruction.command.slot) heq
    rw [hslot]
    rw [resultCommand_eq hcommand]
  fetch_length := by rw [h.fetch, h.execute, List.length_map, List.length_map]
  execute_length := by rw [h.execute, List.length_map, h.steps_length, h.result_length]

end Layout

namespace Schedule

variable {schedule : Schedule} {steps position : Nat}

/-- The programs of a schedule are for their stages. -/
theorem program_staged (schedule : Schedule) : Staged schedule.program := by
  intro stage operation hoperation
  cases stage with
  | fetch =>
    obtain ⟨instruction, _, rfl⟩ := List.mem_map.mp hoperation
    rfl
  | execute =>
    obtain ⟨instruction, _, rfl⟩ := List.mem_map.mp hoperation
    rfl
  | result =>
    obtain ⟨instruction, _, rfl⟩ := List.mem_map.mp hoperation
    rfl

theorem program_fetch_getElem? {operation : Operation}
    (h : (schedule.program .fetch)[position]? = some operation) :
    ∃ instruction, schedule.fetch[position]? = some instruction ∧ operation = instruction.map .fetch := by
  rw [program, List.getElem?_map, Option.map_eq_some_iff] at h
  obtain ⟨instruction, hat, rfl⟩ := h
  exact ⟨instruction, hat, rfl⟩

theorem program_execute_getElem? {operation : Operation}
    (h : (schedule.program .execute)[position]? = some operation) :
    ∃ instruction, schedule.execute[position]? = some instruction ∧ operation = instruction.map .execute := by
  rw [program, List.getElem?_map, Option.map_eq_some_iff] at h
  obtain ⟨instruction, hat, rfl⟩ := h
  exact ⟨instruction, hat, rfl⟩

theorem program_result_getElem? {operation : Operation}
    (h : (schedule.program .result)[position]? = some operation) :
    ∃ instruction, schedule.result[position]? = some instruction ∧ operation = instruction.map .result := by
  rw [program, List.getElem?_map, Option.map_eq_some_iff] at h
  obtain ⟨instruction, hat, rfl⟩ := h
  exact ⟨instruction, hat, rfl⟩

theorem program_fetch_length (schedule : Schedule) : (schedule.program .fetch).length = schedule.fetch.length :=
  List.length_map _

theorem program_execute_length (schedule : Schedule) :
    (schedule.program .execute).length = schedule.execute.length :=
  List.length_map _

theorem program_result_length (schedule : Schedule) : (schedule.program .result).length = schedule.result.length :=
  List.length_map _

theorem Rotates.steps_pos (h : schedule.Rotates steps) (hposition : position < schedule.execute.length) :
    0 < steps := by
  rw [h.execute_length] at hposition
  exact Nat.pos_of_mul_pos_left (Nat.zero_lt_of_lt hposition)

theorem program_execute_getElem (hposition : position < schedule.execute.length) :
    (schedule.program .execute)[position]? = some ((schedule.execute[position]).map .execute) := by
  rw [program, List.getElem?_map, List.getElem?_eq_getElem hposition, Option.map_some]

/-- An output tile is opened by its first step. -/
theorem Rotates.opened (h : schedule.Rotates steps) {count : Nat} (hcount : count ≤ schedule.execute.length) :
    flagged Command.opens (schedule.program .execute) count = (count + (steps - 1)) / steps := by
  induction count with
  | zero =>
    rw [flagged_zero, Nat.zero_add]
    cases steps with
    | zero => rfl
    | succ steps => exact (Nat.div_eq_of_lt (Nat.lt_succ_self steps)).symm
  | succ count ih =>
    have hpos := h.steps_pos hcount
    have hinstruction := List.getElem?_eq_getElem hcount
    rw [flagged_succ _ (program_execute_getElem hcount), ih (Nat.le_of_succ_le hcount)]
    change _ + (if (schedule.execute[count]).command.clear = true then 1 else 0) = _
    simp only [(h.execute count _ hinstruction).2.2.1]
    obtain ⟨steps, rfl⟩ := Nat.exists_eq_succ_of_ne_zero (Nat.ne_of_gt hpos)
    rw [Nat.succ_sub_one, Nat.add_right_comm, Nat.succ_div]
    simp only [Nat.add_assoc, Nat.dvd_iff_mod_eq_zero, Nat.add_mod_right]

/-- An output tile is closed by its last step. -/
theorem Rotates.closed (h : schedule.Rotates steps) {count : Nat} (hcount : count ≤ schedule.execute.length) :
    flagged Command.closes (schedule.program .execute) count = count / steps := by
  induction count with
  | zero => rw [flagged_zero, Nat.zero_div]
  | succ count ih =>
    have hinstruction := List.getElem?_eq_getElem hcount
    have hpos := h.steps_pos hcount
    -- the quotient goes up by one exactly where the last step of an output tile is done
    have hlast : count % steps + 1 = steps ↔ steps ∣ count + 1 := by
      obtain ⟨steps, rfl⟩ := Nat.exists_eq_succ_of_ne_zero (Nat.ne_of_gt hpos)
      rw [Nat.dvd_iff_mod_eq_zero, Nat.succ_mod_succ_eq_zero_iff, Nat.succ_inj]
    rw [flagged_succ _ (program_execute_getElem hcount), ih (Nat.le_of_succ_le hcount)]
    change _ + (if (schedule.execute[count]).command.commit = true then 1 else 0) = _
    simp only [(h.execute count _ hinstruction).2.2.2, hlast, Nat.succ_div]

/-- How far the stages of a schedule are from each other, by what each of them has done and holds. -/
structure Spread (schedule : Schedule) (steps : Nat) (handoff : Handoff) (position held : Stage → Nat) : Prop where
  operandFree : handoff.operandFree + (position .fetch + held .fetch) = operandSlots + position .execute
  operandFull : handoff.operandFull + (position .execute + held .execute) = position .fetch
  resultFree : handoff.resultFree + (position .execute + held .execute + (steps - 1)) / steps =
    resultSlots + position .result
  resultFull : handoff.resultFull + (position .result + held .result) = position .execute / steps
  fetch_le : position .fetch ≤ schedule.execute.length
  execute_le : position .execute ≤ schedule.execute.length

namespace Spread

variable {handoff : Handoff} {position held : Stage → Nat}

/-- The result stage can only have written out what the execute stage handed on. -/
theorem execute_through (h : schedule.Spread steps handoff position held) (hrotates : schedule.Rotates steps)
    (hresult : position .result = schedule.result.length) : position .execute = schedule.execute.length := by
  have hfull := h.resultFull
  refine Nat.le_antisymm h.execute_le ?_
  rw [hrotates.execute_length]
  calc _ ≤ position .execute / steps * steps := Nat.mul_le_mul_right steps (by omega)
    _ ≤ _ := Nat.div_mul_le_self _ _

/-- The execute stage can only have executed what was fetched. -/
theorem fetch_through (h : schedule.Spread steps handoff position held)
    (hexecute : position .execute = schedule.execute.length) : position .fetch = schedule.execute.length := by
  have hfull := h.operandFull
  have hfetch := h.fetch_le
  omega

/-- When all stages are through and hold nothing, all regions are free. -/
theorem idle (h : schedule.Spread steps handoff position held) (hrotates : schedule.Rotates steps)
    (hheld : ∀ stage, held stage = 0) (hresult : position .result = schedule.result.length) : handoff = .idle := by
  have hexecute := h.execute_through hrotates hresult
  have hfetch := h.fetch_through hexecute
  obtain ⟨hoperandFree, hoperandFull, hresultFree, hresultFull, -, -⟩ := h
  simp only [hheld, Nat.add_zero] at hoperandFree hoperandFull hresultFree hresultFull
  have hopened : (position .execute + (steps - 1)) / steps = position .execute / steps := by
    rw [hexecute, hrotates.execute_length]
    rcases Nat.eq_zero_or_pos steps with rfl | hpos
    · rw [Nat.div_zero, Nat.div_zero]
    · rw [Nat.mul_div_cancel _ hpos, Nat.add_comm, Nat.add_mul_div_right _ _ hpos, Nat.div_eq_of_lt (by omega),
        Nat.zero_add]
  have hwritten : position .execute / steps ≤ position .result := by
    rw [hexecute, hresult, hrotates.execute_length]
    exact Nat.div_le_of_le_mul (Nat.mul_comm _ _ ▸ Nat.le_refl _)
  rw [hopened] at hresultFree
  cases handoff with
  | mk operandFree operandFull resultFree resultFull =>
    simp only at hoperandFree hoperandFull hresultFree hresultFull
    rw [Handoff.idle, Handoff.mk.injEq]
    omega

end Spread

end Schedule

namespace Flow

variable {schedule : Schedule} {steps : Nat} {first position : Stage → Nat} {left : Backlog}
  {stages : PerStage Controller} {handoff : Handoff}

theorem spread (hrotates : schedule.Rotates steps)
    (h : Flow schedule.program first left stages handoff position) :
    schedule.Spread steps handoff position fun stage => (stages.get stage).activity.held := by
  obtain ⟨hlane, hoperandFree, hoperandFull, hresultFree, hresultFull⟩ := h
  have hreach := (hlane .execute).position_add_taken_le
  have hheld := (stages.get .execute).activity.held_le_taken
  have hposition := (hlane .execute).position_le
  have hfetch := (hlane .fetch).position_le
  rw [schedule.program_execute_length] at hreach hposition
  rw [schedule.program_fetch_length, hrotates.fetch_length] at hfetch
  rw [hrotates.opened (Nat.le_trans (Nat.add_le_add_left hheld _) hreach)] at hresultFree
  rw [hrotates.closed hposition] at hresultFull
  exact ⟨hoperandFree, hoperandFull, hresultFree, hresultFull, hfetch, hposition⟩

end Flow

end BitSerial
