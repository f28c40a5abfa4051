import BitSerial.Proofs.Completion

/-! # What is on chip

A fetch that is done leaves the tile that it transferred in its slot. Following the trail of a device, one can say of
each slot which tile was last brought there, and what the buffer of the operand held at the time. The tracker does not
see any of this: it only remembers what was asked for. That it never takes a tile on chip for another one, or for one
that was replaced since, is an agreement between the tracker and the trail that every step of a history keeps.

While a schedule is streamed the tracker is ahead of the device: it already stands where the schedule ends. The
agreement is then with the tracker as it was after the last step that was fetched. The execute stage is at most two
steps behind that, and within two steps no slot comes round again.
-/

namespace BitSerial

open Session (RunEnd)

/-- What is in each operand slot: the address of a tile, and what the buffer of the operand held when it was brought. -/
abbrev OnChip := Operand → Nat → Option (Nat × List UInt8)

/-- What the buffer of an operand holds. -/
def Buffers.content (buffers : Buffers) (memory : Memory) (operand : Operand) : List UInt8 :=
  memory.bytesFrom (buffers.operand operand).address (buffers.operand operand).bytes

namespace OnChip

def unknown : OnChip := fun _ _ => none

/-- What is on chip after a fetch. -/
def fetched (content : Operand → List UInt8) (chip : OnChip) (command : FetchCommand) : OnChip := fun operand slot =>
  match command.blocks.get operand with
  | some block => if slot = command.slot then some (block.address, content operand) else chip operand slot
  | none => chip operand slot

/-- What is on chip after an operation is done. -/
def worked (content : Operand → List UInt8) (chip : OnChip) (operation : Operation) : OnChip :=
  match operation.command with
  | .fetch command => chip.fetched content command
  | .execute _ => chip
  | .result _ => chip

/-- What is on chip after an event. -/
def see (buffers : Buffers) (chip : OnChip) (event : Event) : OnChip :=
  match event with
  | .reset _ => unknown
  | .turn _ device => (event.finished? .fetch).elim chip (chip.worked (buffers.content device.memory))

variable {content : Operand → List UInt8} {chip : OnChip} {command : FetchCommand} {operand : Operand} {slot : Nat}

theorem fetched_of_none (h : command.blocks.get operand = none) : chip.fetched content command operand = chip operand := by
  funext slot
  simp [fetched, h]

theorem fetched_of_some {block : FetchBlock} (h : command.blocks.get operand = some block) :
    chip.fetched content command operand command.slot = some (block.address, content operand) := by
  simp [fetched, h]

theorem fetched_of_ne (hslot : slot ≠ command.slot) : chip.fetched content command operand slot = chip operand slot := by
  unfold fetched
  split
  · rw [if_neg hslot]
  · rfl

end OnChip

/-- What is on chip at the end of a trail. -/
def onChip (buffers : Buffers) (trail : List Event) : OnChip := trail.foldl (OnChip.see buffers) .unknown

theorem onChip_append (buffers : Buffers) (trail : List Event) (event : Event) :
    onChip buffers (trail ++ [event]) = (onChip buffers trail).see buffers event := by
  simp [onChip]

/-- The tracker knows nothing that is not so: every tile that it takes to be on chip is there, and current. -/
def Residency.Truthful (residency : Residency) (chip : OnChip) (content : Operand → List UInt8) : Prop :=
  ∀ operand slot address, slot < operandSlots → residency.known operand slot = some address →
    chip operand slot = some (address, content operand)

namespace Residency.Truthful

variable {residency : Residency} {chip : OnChip} {content : Operand → List UInt8}

/-- Whoever knows nothing is right. -/
theorem of_unknown (h : ∀ operand slot, residency.known operand slot = none) : residency.Truthful chip content := by
  intro operand slot address _ hknown
  rw [h] at hknown
  cases hknown

theorem invalidateAll : residency.invalidateAll.Truthful chip content := of_unknown Residency.known_invalidateAll

/-- What an operand held does not matter once its tiles are forgotten. -/
theorem invalidate (h : residency.Truthful chip content) {operand : Operand} {after : Operand → List UInt8}
    (hother : ∀ other, other ≠ operand → after other = content other) :
    (residency.invalidate operand).Truthful chip after := by
  intro other slot address hslot hknown
  rw [Residency.known_invalidate] at hknown
  split at hknown
  next => cases hknown
  next hne =>
    rw [hother other hne]
    exact h other slot address hslot hknown

end Residency.Truthful

namespace Layout

variable {layout : Layout} {operand : Operand} {slot address : Nat} {block : Option FetchBlock}
  {residency after : Residency}

/-- A transfer is left out only if the tracker knows the tile to be there. -/
theorem transfer?_eq_ok (hslot : slot < operandSlots)
    (h : layout.transfer? operand slot address residency = .ok (block, after)) :
    (∃ hit, residency.Asked operand slot (.ofAddress address) hit after) ∧
      ((∃ found, block = some found ∧ found.address = address) ∨
        block = none ∧ residency.known operand slot = some address) := by
  simp only [transfer?, bind_eq_ok_iff, Prod.exists] at h
  obtain ⟨hit, next, haccess, h⟩ := h
  have hasked := Residency.access_asked hslot haccess
  split at h
  next hhit =>
    cases h
    refine ⟨⟨hit, hasked⟩, .inr ⟨rfl, ?_⟩⟩
    obtain ⟨hsome, hknown⟩ := hasked.hit_iff.mp hhit
    obtain ⟨found, hfound⟩ := Option.ne_none_iff_exists'.mp hsome
    rw [hknown, hfound, TileIdentity.eq_some_of_ofAddress hfound]
  next =>
    simp only [fetchBlock, bind_eq_ok_iff, pure_eq_ok_iff, Prod.mk.injEq] at h
    obtain ⟨_, ⟨_, _, rfl⟩, rfl, rfl⟩ := h
    exact ⟨⟨hit, hasked⟩, .inl ⟨_, rfl, rfl⟩⟩

namespace StepWritten

variable {output step bytes : Nat} {addresses : PerOperand Nat} {blocks : PerOperand (Option FetchBlock)}
  {start middle last : Residency}

/-- What a step does to the entries of one operand, and when it leaves the transfer out. -/
theorem known (h : layout.StepWritten output step addresses blocks start middle last bytes) (operand : Operand) :
    (last.known operand (layout.stepSlot output step) = .ofAddress (addresses.get operand) ∧
      ∀ slot < operandSlots, slot ≠ layout.stepSlot output step → last.known operand slot = start.known operand slot) ∧
      ((∃ block, blocks.get operand = some block ∧ block.address = addresses.get operand) ∨
        blocks.get operand = none ∧
          start.known operand (layout.stepSlot output step) = some (addresses.get operand)) := by
  have hslot := layout.stepSlot_lt output step
  obtain ⟨⟨_, hlhs⟩, hlhsBlock⟩ := transfer?_eq_ok hslot h.lhs
  obtain ⟨⟨_, hrhs⟩, hrhsBlock⟩ := transfer?_eq_ok hslot h.rhs
  cases operand with
  | lhs =>
    have hkept (slot : Nat) (hlt : slot < operandSlots) : last.known .lhs slot = middle.known .lhs slot :=
      hrhs.others .lhs slot hlt (.inl nofun)
    refine ⟨⟨?_, fun slot hlt hne => ?_⟩, hlhsBlock⟩
    · rw [hkept _ hslot]
      exact hlhs.known
    · rw [hkept slot hlt]
      exact hlhs.others .lhs slot hlt (.inr hne)
  | rhs =>
    have hkept (slot : Nat) (hlt : slot < operandSlots) : middle.known .rhs slot = start.known .rhs slot :=
      hlhs.others .rhs slot hlt (.inl nofun)
    refine ⟨⟨hrhs.known, fun slot hlt hne => ?_⟩, ?_⟩
    · rw [hrhs.others .rhs slot hlt (.inr hne)]
      exact hkept slot hlt
    · rw [← hkept _ hslot]
      exact hrhsBlock

variable {chip : OnChip} {content : Operand → List UInt8}

/-- After the fetch of a step its tiles are on chip, whether they were transferred or known to be there. -/
theorem fetched (h : layout.StepWritten output step addresses blocks start middle last bytes)
    (htruthful : start.Truthful chip content) (operand : Operand) :
    chip.fetched content (layout.fetchCommand (layout.stepSlot output step) blocks) operand
      (layout.stepSlot output step) = some (addresses.get operand, content operand) := by
  rcases (h.known operand).2 with ⟨block, hblock, haddress⟩ | ⟨hnone, hknown⟩
  · rw [← haddress]
    exact OnChip.fetched_of_some hblock
  · rw [OnChip.fetched_of_none hnone]
    exact htruthful operand _ _ (layout.stepSlot_lt output step) hknown

theorem truthful (h : layout.StepWritten output step addresses blocks start middle last bytes)
    (htruthful : start.Truthful chip content) :
    last.Truthful (chip.fetched content (layout.fetchCommand (layout.stepSlot output step) blocks)) content := by
  intro operand slot address hslot hknown
  obtain ⟨⟨hasked, hothers⟩, -⟩ := h.known operand
  by_cases hsame : slot = layout.stepSlot output step
  · subst hsame
    rw [hasked] at hknown
    rw [TileIdentity.eq_some_of_ofAddress hknown]
    exact h.fetched htruthful operand
  · rw [hothers slot hslot hsame] at hknown
    rw [OnChip.fetched_of_ne hsame]
    exact htruthful operand slot address hslot hknown

end StepWritten

/-- What is on chip after the first fetches of a schedule: the tiles of the last two steps, as long as the operands hold
what they held. The tracker is truthful again after all of them. -/
theorem ScheduleWritten.fetched {schedule : Schedule} {start last : Residency} {bandPairs : Nat} {steps : List Step}
    {results : List (Instruction ResultCommand)}
    (h : layout.ScheduleWritten schedule start last bandPairs steps results) {chip : OnChip}
    {content : Operand → List UInt8} (htruthful : start.Truthful chip content) :
    last.Truthful ((schedule.program .fetch).foldl (·.worked content) chip) content ∧
      ∀ count position, position < count → count ≤ position + operandSlots → count ≤ steps.length →
        ∀ operand, ∃ address,
          layout.neededAddress operand (position / layout.nest.stepCount) (position % layout.nest.stepCount) =
              .ok address ∧
            ((schedule.program .fetch).take count).foldl (·.worked content) chip operand (position % operandSlots) =
              some (address, content operand) := by
  obtain ⟨before, hzero, hlast, hlink⟩ := h.steps_chain.states
  have hprogram : schedule.program .fetch = steps.map fun step => step.fetch.map .fetch := by
    rw [Schedule.program, h.fetch, List.map_map]
    rfl
  -- the induction carries the tracker as it was after the steps that were fetched
  have hfetched (count : Nat) (hcount : count ≤ steps.length) :
      (before count).1.Truthful (((schedule.program .fetch).take count).foldl (·.worked content) chip) content ∧
        ∀ position, position < count → count ≤ position + operandSlots → ∀ operand, ∃ address,
          layout.neededAddress operand (position / layout.nest.stepCount) (position % layout.nest.stepCount) =
              .ok address ∧
            ((schedule.program .fetch).take count).foldl (·.worked content) chip operand (position % operandSlots) =
              some (address, content operand) := by
    induction count with
    | zero =>
      rw [hzero]
      exact ⟨htruthful, fun position hposition => absurd hposition (Nat.not_lt_zero _)⟩
    | succ count ih =>
      obtain ⟨htruthful, htiles⟩ := ih (Nat.le_of_succ_le hcount)
      have hstep := hlink count hcount
      rw [Nat.zero_add] at hstep
      obtain ⟨addresses, blocks, middle, bytes, hstep, _, hwritten⟩ := hstep
      have hat : (schedule.program .fetch)[count]? = some (steps[count].fetch.map .fetch) := by
        rw [hprogram, List.getElem?_map, List.getElem?_eq_getElem hcount, Option.map_some]
      rw [List.take_add_one, hat, Option.toList_some, List.foldl_append, List.foldl_cons, List.foldl_nil, hwritten]
      generalize ((schedule.program .fetch).take count).foldl (·.worked content) chip = chip at htruthful htiles
      refine ⟨hstep.truthful htruthful, fun position hlt hle operand => ?_⟩
      rw [Nat.lt_succ_iff_lt_or_eq] at hlt
      rcases hlt with hlt | rfl
      · obtain ⟨address, haddress, htile⟩ := htiles position hlt (Nat.le_of_succ_le hle) operand
        refine ⟨address, haddress, Eq.trans (OnChip.fetched_of_ne ?_) htile⟩
        change position % operandSlots ≠ layout.stepSlot _ _
        rw [stepSlot_eq]
        unfold operandSlots at hle ⊢
        omega
      · refine ⟨_, hstep.address operand, ?_⟩
        rw [← @stepSlot_eq layout position]
        exact hstep.fetched htruthful operand
  refine ⟨?_, fun count position hlt hle hcount => (hfetched count hcount).2 position hlt hle⟩
  have hall := (hfetched steps.length (Nat.le_refl _)).1
  rwa [hlast, List.take_of_length_le (by rw [hprogram, List.length_map])] at hall

end Layout

/-- A recorded device was once like this: a device, with what had happened to it by then. -/
def Recorded.Passed (recorded : Recorded) (before : List Event) (current : Device) : Prop :=
  before = recorded.trail ∧ current = recorded.device ∨
    ∃ event later, recorded.trail = before ++ event :: later ∧ current = event.device

namespace Recorded.Passed

variable {recorded : Recorded} {before : List Event} {current : Device}

/-- What is done to a device between the events is seen only in the end. -/
theorem of_change {device : Device} (h : Passed { recorded with device } before current) :
    before = recorded.trail ∧ current = device ∨ recorded.Passed before current := by
  rcases h with h | h
  · exact .inl h
  · exact .inr (.inr h)

theorem of_event {device : Device} {event : Event} {trail : List Event}
    (h : Passed ⟨device, trail ++ [event]⟩ before current) :
    before = trail ++ [event] ∧ current = device ∨ Passed ⟨event.device, trail⟩ before current := by
  rcases h with h | ⟨first, later, htrail, hcurrent⟩
  · exact .inl h
  · refine .inr ?_
    rcases List.eq_nil_or_concat later with rfl | ⟨later, last, rfl⟩
    · obtain ⟨rfl, hevent⟩ := List.append_inj' htrail rfl
      cases hevent
      exact .inl ⟨rfl, hcurrent⟩
    · rw [List.concat_eq_append, ← List.cons_append, ← List.append_assoc] at htrail
      obtain ⟨htrail, -⟩ := List.append_inj' htrail rfl
      exact .inr ⟨first, later, htrail, hcurrent⟩

end Recorded.Passed

/-- All that a reached device once was, was reached. -/
theorem Reached.passed {programs : Stage → List Operation} {start recorded : Recorded} {left : Backlog}
    (h : Reached programs start left recorded) {within : List Event} {current : Device}
    (hpassed : recorded.Passed (start.trail ++ within) current) :
    ∃ left, Reached programs start left ⟨current, start.trail ++ within⟩ := by
  have hend {left : Backlog} {recorded : Recorded} (h : Reached programs start left recorded)
      (hbefore : start.trail ++ within = recorded.trail) (hcurrent : current = recorded.device) :
      ∃ left, Reached programs start left ⟨current, start.trail ++ within⟩ := by
    rw [hbefore, hcurrent]
    exact ⟨left, h⟩
  have hchange {left : Backlog} {recorded : Recorded} {device : Device}
      (h : Reached programs start left { recorded with device })
      (ih : recorded.Passed (start.trail ++ within) current →
        ∃ left, Reached programs start left ⟨current, start.trail ++ within⟩)
      (hpassed : Recorded.Passed { recorded with device } (start.trail ++ within) current) :
      ∃ left, Reached programs start left ⟨current, start.trail ++ within⟩ := by
    rcases hpassed.of_change with ⟨hbefore, hcurrent⟩ | hpassed
    · exact hend h hbefore hcurrent
    · exact ih hpassed
  induction h with
  | start =>
    rcases hpassed with ⟨hbefore, hcurrent⟩ | ⟨event, later, htrail, _⟩
    · exact hend .start hbefore hcurrent
    · rw [List.append_assoc, List.self_eq_append_right] at htrail
      simp at htrail
  | @turn left recorded after stage h hturn ih =>
    have htrail := ((Recorded.turn_eq_ok_iff _).mp hturn).2
    have hlast : Recorded.Passed ⟨after.device, recorded.trail ++ [.turn stage recorded.device]⟩
        (start.trail ++ within) current := by
      rw [← htrail]
      exact hpassed
    rcases hlast.of_event with ⟨hbefore, hcurrent⟩ | hpassed
    · exact hend (h.turn hturn) (hbefore.trans htrail.symm) hcurrent
    · exact ih hpassed
  | count h ih => exact hchange h.count ih hpassed
  | pushToken h hnext hroom ih => exact hchange (h.pushToken hnext hroom) ih hpassed
  | pushCommand h hnext hroom ih => exact hchange (h.pushCommand hnext hroom) ih hpassed
  | stall h stage stalled ih => exact hchange (h.stall stage stalled) ih hpassed
  | enable h enabled ih => exact hchange (h.enable enabled) ih hpassed
  | switch h counting ih => exact hchange (h.switch counting) ih hpassed

theorem Session.attach_residency {device : Device} {gemm : Gemm} {options : Options} {session : Session}
    (h : attach device gemm options = .ok (.attached session)) : session.residency = .fresh := by
  cases attach_attaches h with
  | attached => rfl

namespace Watch

variable {device : Device} {watch after : Watch} {schedule : Schedule} {residency : Residency} {left : Backlog}
  {recorded : Recorded}

/-- What a schedule brings on chip while it is streamed is what its fetches bring that are done, from the buffers as
they are. -/
theorem Sound.onChip_reached (h : watch.Sound device)
    (hschedule : watch.session.nextSchedule = .ok (schedule, residency))
    (hreached : Reached schedule.program watch.recorded left recorded) :
    ∃ within, recorded.trail = watch.trail ++ within ∧
      onChip watch.session.buffers recorded.trail =
        (finishedOf .fetch within).foldl (·.worked watch.installed.get)
          (onChip watch.session.buffers watch.trail) := by
  induction hreached with
  | start => exact ⟨[], (List.append_nil _).symm, rfl⟩
  | @turn left recorded after stage hreached hturn ih =>
    obtain ⟨within, htrail, hchip⟩ := ih
    have hafter := ((Recorded.turn_eq_ok_iff _).mp hturn).2
    refine ⟨within ++ [.turn stage recorded.device], by rw [hafter, htrail, List.append_assoc], ?_⟩
    have hcontent : watch.session.buffers.content recorded.device.memory = watch.installed.get := by
      funext operand
      exact (h.content_reached hschedule hreached operand).trans (h.content operand)
    rw [hafter, onChip_append, hchip, finishedOf_append, List.foldl_append]
    generalize (finishedOf .fetch within).foldl (OnChip.worked watch.installed.get) _ = chip
    unfold OnChip.see finishedOf
    rw [List.filterMap_cons, List.filterMap_nil]
    dsimp only
    rw [hcontent]
    cases (Event.turn stage recorded.device).finished? .fetch with
    | none => rfl
    | some operation => rfl
  | count _ ih => exact ih
  | pushToken _ _ _ ih => exact ih
  | pushCommand _ _ _ ih => exact ih
  | stall _ _ _ ih => exact ih
  | enable _ _ ih => exact ih
  | switch _ _ ih => exact ih

/-- In a history the tracker is truthful about what is on chip. -/
def Truthful (watch : Watch) : Prop :=
  watch.session.residency.Truthful (onChip watch.session.buffers watch.trail) watch.installed.get

theorem Truthful.run (h : watch.Truthful) (hsound : watch.Sound device) {patience : Nat} {surroundings : Surroundings}
    {ended : RunEnd} (hrun : watch.run patience surroundings = .ok (ended, after)) (hended : ended ≠ .unfinished) :
    after.Truthful := by
  rcases Watch.run_eq_ok_iff.mp hrun with ⟨_, _, _, rfl⟩ |
    ⟨schedule, residency, streamEnd, last, hschedule, hstream, hend, htrail, hinstalled⟩
  · exact h
  · obtain ⟨bandPairs, steps, results, hwritten⟩ := Layout.schedule_written hschedule
    unfold Truthful
    rw [htrail, hinstalled]
    cases streamEnd with
    | finished counters =>
      obtain ⟨-, hsession⟩ := Prod.mk.inj hend
      have hstreamed := streamThrough_finished hwritten.rotates hsound.off.quiescent hstream
      have hfinished := hstreamed.finished hsound.off.quiescent .fetch
      obtain ⟨⟨left, hreached, _⟩, _⟩ := hstreamed
      obtain ⟨within, hlast, hchip⟩ := hsound.onChip_reached hschedule hreached
      rw [hlast, finishedOf_append] at hfinished
      rw [hsession]
      change residency.Truthful (onChip watch.session.buffers last.trail) watch.installed.get
      rw [hchip, List.append_cancel_left hfinished]
      exact (hwritten.fetched h).1
    | stopped reason =>
      obtain ⟨-, hsession⟩ := Prod.mk.inj hend
      rw [hsession]
      exact Residency.Truthful.invalidateAll
    | exhausted => exact absurd (Prod.mk.inj hend).1 hended

theorem Truthful.setOperand (h : watch.Truthful) {operand : Operand} {packed : Packed} {answer : Except Refusal Unit}
    (hset : watch.setOperand operand packed = .ok (answer, after)) : after.Truthful := by
  rcases Watch.setOperand_eq_ok hset with rfl | ⟨_, memory, _, rfl⟩
  · exact h
  · refine Residency.Truthful.invalidate h fun other hother => ?_
    rw [PerOperand.get_set, if_neg hother]

end Watch

theorem History.truthful {device : Device} {watch : Watch} (h : History device watch) : watch.Truthful := by
  induction h with
  | attach h =>
    refine Residency.Truthful.of_unknown fun operand slot => ?_
    rw [Watch.begin, Session.attach_residency h, Residency.known_fresh]
  | run h hrun hended ih => exact ih.run h.sound hrun hended
  | setOperand _ hset ih => exact ih.setOperand hset
  | readResult _ hread ih =>
    obtain ⟨bytesRead, rfl⟩ := Session.readResult_frame hread
    exact ih
  | reset _ _ => exact Residency.Truthful.invalidateAll
  | stall _ _ _ ih => exact ih
  | configure _ _ ih => exact ih

/-- An operation of the execute stage computes on current tiles, when what happened within its run is given. Its place
in the loops is the number of operations that were worked on before it; the tile that this place needs of an operand is
in the slot that the command names, as the operand was last given. -/
structure Watch.ComputesOnCurrent (watch : Watch) (within : List Event) (operation : Operation)
    (output step : Nat) : Prop where
  place : (finishedOf .execute within).length = output * watch.session.layout.nest.stepCount + step
  step_lt : step < watch.session.layout.nest.stepCount
  command : operation.command =
    .execute (watch.session.layout.executeCommand output step (watch.session.layout.stepSlot output step))
  tiles : ∀ operand, ∃ address,
    watch.session.layout.neededAddress operand output step = .ok address ∧
      onChip watch.session.buffers (watch.trail ++ within) operand (watch.session.layout.stepSlot output step) =
        some (address, watch.installed.get operand)

theorem Watch.Sound.computesOnCurrent {device : Device} {watch : Watch} (hsound : watch.Sound device)
    (htruthful : watch.Truthful) {schedule : Schedule} {residency : Residency}
    (hschedule : watch.session.nextSchedule = .ok (schedule, residency)) {left : Backlog} {within : List Event}
    {current : Device} (hreached : Reached schedule.program watch.recorded left ⟨current, watch.trail ++ within⟩)
    {operation : Operation} {cycles : Nat}
    (hworking : (current.stages.get .execute).activity = .running operation cycles) :
    ∃ output step, watch.ComputesOnCurrent within operation output step := by
  obtain ⟨bandPairs, steps, results, hwritten⟩ := Layout.schedule_written hschedule
  have hflow := hreached.flow schedule.program_staged hsound.off.quiescent
  have hfinished (stage : Stage) := hreached.finished schedule.program_staged hsound.off.quiescent stage
  simp only [Watch.recorded, finishedOf_append, List.append_cancel_left_eq] at hflow hfinished
  generalize watch.session.device.doneSince current = done at hflow hfinished
  -- the execute stage works on the operation after those that it is done with
  have hinFlight := (hflow.lane .execute).inFlight operation (by rw [hworking]; rfl)
  have hexecuted : (finishedOf .execute within).length = done .execute := by
    rw [hfinished, hworking]
    exact List.length_take_of_le (hflow.lane .execute).position_le
  -- whose step was fetched, with at most one later step
  have hcount : (finishedOf .fetch within) = (schedule.program .fetch).take
      (done .fetch + (current.stages.get .fetch).activity.worked) := hfinished .fetch
  have hbehind : done .execute < done .fetch + (current.stages.get .fetch).activity.worked ∧
      done .fetch + (current.stages.get .fetch).activity.worked ≤ done .execute + operandSlots ∧
      done .fetch + (current.stages.get .fetch).activity.worked ≤ steps.length := by
    obtain ⟨hfree, hfull, -, -⟩ := hflow.regions
    have hwithin := (hflow.lane .fetch).position_add_taken_le
    have hheld := (current.stages.get .fetch).activity.worked_le_held
    have htaken := (current.stages.get .fetch).activity.held_le_taken
    have hlength : (schedule.program .fetch).length = steps.length := by
      rw [Schedule.program, hwritten.fetch, List.length_map, List.length_map]
    have hexecute : (current.stages.get .execute).activity.held = 1 := by
      rw [hworking]
      rfl
    simp only [hexecute] at hfull
    omega
  obtain ⟨hafter, hahead, hwithin⟩ := hbehind
  obtain ⟨_, htrail, hchip⟩ := hsound.onChip_reached hschedule hreached
  obtain rfl := List.append_cancel_left htrail
  obtain ⟨execute, hexecute, rfl⟩ := schedule.program_execute_getElem? hinFlight
  rw [hwritten.execute, List.getElem?_map, Option.map_eq_some_iff] at hexecute
  obtain ⟨step, hstep, rfl⟩ := hexecute
  obtain ⟨blocks, rfl⟩ := hwritten.step_getElem? hstep
  have hpos : 0 < watch.session.layout.nest.stepCount := by
    refine hwritten.rotates.steps_pos (Nat.lt_of_lt_of_le hafter ?_)
    rw [hwritten.execute, List.length_map]
    exact hwithin
  refine ⟨done .execute / watch.session.layout.nest.stepCount, done .execute % watch.session.layout.nest.stepCount,
    ?_, Nat.mod_lt _ hpos, rfl, fun operand => ?_⟩
  · rw [hexecuted, Nat.mul_comm, Nat.div_add_mod]
  · obtain ⟨address, haddress, htile⟩ := (hwritten.fetched htruthful).2 _ _ hafter hahead hwithin operand
    refine ⟨address, haddress, ?_⟩
    rw [hchip, hcount, Layout.stepSlot_eq]
    exact htile

/-- A run that had its execute stage at work had reached that with the schedule that was asked for before it. -/
theorem Watch.Sound.reached_of_passed {device : Device} {watch after : Watch} (hsound : watch.Sound device)
    {patience : Nat} {surroundings : Surroundings} {ended : RunEnd}
    (hrun : watch.run patience surroundings = .ok (ended, after)) {within : List Event} {current : Device}
    (hpassed : after.recorded.Passed (watch.trail ++ within) current) {operation : Operation} {cycles : Nat}
    (hworking : (current.stages.get .execute).activity = .running operation cycles) :
    ∃ schedule residency left, watch.session.nextSchedule = .ok (schedule, residency) ∧
      Reached schedule.program watch.recorded left ⟨current, watch.trail ++ within⟩ := by
  rcases Watch.run_eq_ok_iff.mp hrun with ⟨_, _, _, rfl⟩ |
    ⟨schedule, residency, streamEnd, last, hschedule, hstream, hend, htrail, _⟩
  · rcases hpassed with ⟨_, rfl⟩ | ⟨event, later, htrail, _⟩
    · rw [Watch.recorded, hsound.off.quiescent.activity] at hworking
      cases hworking
    · rw [Watch.recorded, List.append_assoc, List.self_eq_append_right] at htrail
      simp at htrail
  · obtain ⟨left, reached, hreached, hlast⟩ := Reached.streamThrough hstream
    have hdevice : after.session.device = last.device := by
      have hsession := congrArg Prod.snd hend
      change after.session = _ at hsession
      rw [hsession]
      cases streamEnd <;> rfl
    have hpassed : last.Passed (watch.trail ++ within) current := by
      rw [Watch.recorded, htrail, hdevice] at hpassed
      exact hpassed
    rw [hlast] at hpassed
    cases streamEnd with
    | finished counters =>
      obtain ⟨left, hreached⟩ := hreached.passed hpassed
      exact ⟨schedule, residency, left, hschedule, hreached⟩
    | exhausted =>
      obtain ⟨left, hreached⟩ := hreached.passed hpassed
      exact ⟨schedule, residency, left, hschedule, hreached⟩
    | stopped reason =>
      rcases Recorded.Passed.of_event hpassed with ⟨_, rfl⟩ | hpassed
      · rw [reached.device.reset_quiescent.activity] at hworking
        cases hworking
      · obtain ⟨left, hreached⟩ := hreached.passed hpassed
        exact ⟨schedule, residency, left, hschedule, hreached⟩

/-- Whatever was done with a session, no stage works between the steps, and whenever the execute stage works within a
run, however the run ends, it computes on the tiles that its place in the loops needs, as the operands were last
given. -/
theorem executes_on_current_tiles {device : Device} {watch : Watch} (h : History device watch) :
    (∀ stage, (watch.session.device.stages.get stage).activity = .idle) ∧
      ∀ patience surroundings ended after, watch.run patience surroundings = .ok (ended, after) →
        ∀ within current operation cycles, after.recorded.Passed (watch.trail ++ within) current →
          (current.stages.get .execute).activity = .running operation cycles →
            ∃ output step, watch.ComputesOnCurrent within operation output step := by
  have hsound := h.sound
  refine ⟨hsound.off.quiescent.activity, ?_⟩
  intro patience surroundings ended after hrun within current operation cycles hpassed hworking
  obtain ⟨schedule, residency, left, hschedule, hreached⟩ := hsound.reached_of_passed hrun hpassed hworking
  exact hsound.computesOnCurrent h.truthful hschedule hreached hworking

/-- After 329 polls of the first run of the small product, its third step computes on a right tile that was fetched for
the first one. -/
theorem executes_on_current_tiles_small :
    ∃ session ended after operation cycles, History (.ofGeometry .reference) (.begin session) ∧
      (Watch.begin session).run 329 (.still false) = .ok (ended, after) ∧
      (after.session.device.stages.get .execute).completed = 2 ∧
      (after.session.device.stages.get .execute).activity = .running operation cycles ∧
      ∃ output step, (Watch.begin session).ComputesOnCurrent after.trail operation output step := by
  have hstate : smallSession.bind (fun session => (session.run 329 (.still false)).toOption.map fun outcome =>
      let controller := outcome.2.device.stages.get .execute
      (controller.activity.state, controller.completed)) = some (.run, 2) := by
    decide +kernel
  obtain ⟨session, hsession, hstate⟩ := Option.bind_eq_some_iff.mp hstate
  obtain ⟨⟨ended, last⟩, hrun, hstate⟩ := Option.map_eq_some_iff.mp hstate
  obtain ⟨hstate, hcompleted⟩ := Prod.mk.inj hstate
  have hhistory : History (.ofGeometry .reference) (.begin session) := .attach (smallSession_attached hsession)
  have hwatched := toOption_eq_some_iff.mp hrun
  change (Watch.begin session).session.run 329 (.still false) = _ at hwatched
  rw [← Watch.run_session, map_eq_ok_iff] at hwatched
  obtain ⟨⟨_, after⟩, hwatched, heq⟩ := hwatched
  obtain ⟨rfl, rfl⟩ := Prod.mk.inj heq
  cases hactivity : (after.session.device.stages.get .execute).activity with
  | running operation cycles =>
    refine ⟨session, _, after, operation, cycles, hhistory, hwatched, hcompleted, hactivity, ?_⟩
    exact (executes_on_current_tiles hhistory).2 _ _ _ _ hwatched after.trail _ operation cycles (.inl ⟨rfl, rfl⟩)
      hactivity
  | idle => rw [hactivity] at hstate; cases hstate
  | receiving operation => rw [hactivity] at hstate; cases hstate
  | sending operation => rw [hactivity] at hstate; cases hstate

end BitSerial
