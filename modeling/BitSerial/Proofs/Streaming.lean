import BitSerial.Proofs.Accounts
import BitSerial.Proofs.Cutting
import BitSerial.Proofs.Driving
import BitSerial.Proofs.Positions

/-! # A schedule that was streamed

The host waits for the result stage alone. That this suffices follows from the regions: the result stage can only be
done when the execute stage has handed on every output tile, and the execute stage only when every step was fetched. A
device through which a schedule was streamed to the end is therefore at rest, and what it did is the schedule, no more
and no less.
-/

namespace BitSerial

namespace Lane

variable {program : List Operation} {first position : Nat} {controller : Controller}

/-- A stage that is through with its program has nothing left. -/
theorem drained (h : Lane program [] [] first controller program.length) :
    controller.tokens.toList = [] ∧ controller.commands.toList = [] ∧ controller.activity = .idle := by
  have htaken : controller.activity.taken = 0 := by
    have := h.position_add_taken_le
    omega
  have htokens := h.tokens_eq
  have hcommands := h.commands_eq
  rw [htaken, Nat.add_zero, List.drop_length, List.map_nil, List.append_nil] at htokens hcommands
  refine ⟨htokens, hcommands, ?_⟩
  cases hactivity : controller.activity with
  | idle => rfl
  | receiving operation => rw [hactivity] at htaken; cases htaken
  | running operation left => rw [hactivity] at htaken; cases htaken
  | sending operation => rw [hactivity] at htaken; cases htaken

/-- A stage that has nothing left is through with its program. -/
theorem through (h : Lane program [] [] first controller position) (hzero : controller.outstanding = .ok 0) :
    position = program.length := by
  obtain ⟨_, hcount⟩ := Word32.add_eq_ok_iff.mp hzero
  have hempty : controller.tokens.toList = [] := by
    rw [← List.length_eq_zero_iff, Queue.length_toList]
    omega
  have htaken : controller.activity.taken = 0 := by
    have hnone : (if controller.activity.operation?.isSome then 1 else 0) = 0 := by omega
    cases hactivity : controller.activity with
    | idle => rfl
    | receiving operation => simp [hactivity, Activity.operation?] at hnone
    | running operation left => simp [hactivity, Activity.operation?] at hnone
    | sending operation => simp [hactivity, Activity.operation?] at hnone
  have htokens := h.tokens_eq
  rw [hempty, htaken, Nat.add_zero, List.append_nil, eq_comm, List.map_eq_nil_iff, List.drop_eq_nil_iff] at htokens
  exact Nat.le_antisymm h.position_le htokens

end Lane

/-- When all is pushed and the result stage has nothing left, no stage has. -/
theorem Flow.quiescent {schedule : Schedule} {steps : Nat} {first position : Stage → Nat} {left : Backlog}
    {device : Device} (hrotates : schedule.Rotates steps)
    (h : Flow schedule.program first left device.stages device.handoff position) (hempty : left.Empty)
    (hzero : (device.stages.get .result).outstanding = .ok 0) : device.Quiescent := by
  have hspread := h.spread hrotates
  have hlanes (stage : Stage) : Lane (schedule.program stage) [] [] (first stage) (device.stages.get stage)
      (position stage) := by
    have hlane := h.lane stage
    rwa [(hempty stage).1, (hempty stage).2] at hlane
  -- the result stage wrote out every tile, so the execute stage handed every tile on, and it only takes what was fetched
  have hresult := (hlanes .result).through hzero
  have hexecute := hspread.execute_through hrotates (hresult.trans schedule.program_result_length)
  have hfetch := hspread.fetch_through hexecute
  have hthrough (stage : Stage) : position stage = (schedule.program stage).length := by
    cases stage with
    | fetch => rw [hfetch, schedule.program_fetch_length, hrotates.fetch_length]
    | execute => rw [hexecute, schedule.program_execute_length]
    | result => exact hresult
  have hdrained (stage : Stage) := (hthrough stage ▸ hlanes stage).drained
  have hheld (stage : Stage) : (device.stages.get stage).activity.held = 0 := by
    rw [(hdrained stage).2.2]
    rfl
  exact ⟨fun stage => (hdrained stage).1, fun stage => (hdrained stage).2.1, fun stage => (hdrained stage).2.2,
    hspread.idle hrotates hheld (hresult.trans schedule.program_result_length)⟩

/-- What a schedule that was streamed to the end led to. -/
structure Streamed (schedule : Schedule) (start last : Recorded) : Prop where
  reached : ∃ left, Reached schedule.program start left last ∧ left.Empty
  off : last.device.Off

/-- What a run leaves of a device: only one that was given up is followed by a reset. -/
def Session.StreamEnd.leaves (ended : Session.StreamEnd) (reached : Recorded) : Recorded :=
  match ended with
  | .finished _ => reached
  | .stopped _ => Accelerator.reset reached
  | .exhausted => reached

section Ends

variable {options : Options} {surroundings : Surroundings} {patience : Nat} {schedule : Schedule}
  {start last : Recorded} {ended : Session.StreamEnd}

/-- However a run ends, what every run keeps was kept up to there. -/
theorem Operated.streamThrough {keeps : Backlog → Recorded → Prop} (hoperated : Operated keeps)
    (hbegin : keeps (.ofPrograms schedule.program) start)
    (h : Session.streamThrough options surroundings patience schedule start = .ok (ended, last)) :
    ∃ left reached, keeps left reached ∧ last = ended.leaves reached := by
  simp only [Session.streamThrough, bind_eq_ok_iff, Prod.exists] at h
  obtain ⟨feed, started, hstart, loopEnd, worked, hwork, h⟩ := h
  obtain ⟨left, hworked, _⟩ := hoperated.work (hoperated.start hbegin hstart) hwork
  cases loopEnd with
  | exhausted =>
    cases h
    exact ⟨left, _, hworked, rfl⟩
  | stopped reason =>
    simp only [bind_eq_ok_iff, pure_eq_ok_iff, Prod.mk.injEq] at h
    obtain ⟨halted, hhalted, rfl, rfl⟩ := h
    exact ⟨left, halted, hoperated.halt hworked hhalted, rfl⟩
  | done =>
    simp only [bind_eq_ok_iff, pure_eq_ok_iff, Prod.exists, Prod.mk.injEq] at h
    obtain ⟨halted, hhalted, counters, read, hread, rfl, rfl⟩ := h
    refine ⟨left, _, ?_, rfl⟩
    exact Recorded.readCounters_keeps _ (fun _ _ h htick => hoperated.tick h htick) (hoperated.halt hworked hhalted) hread

/-- However a run ends, it reached something that a device can reach. -/
theorem Reached.streamThrough
    (h : Session.streamThrough options surroundings patience schedule start = .ok (ended, last)) :
    ∃ left reached, Reached schedule.program start left reached ∧ last = ended.leaves reached :=
  operated.streamThrough .start h

/-- A run that came through left the device at rest, with all of the schedule done. -/
theorem streamThrough_finished {steps : Nat} (hrotates : schedule.Rotates steps) (hrest : start.device.Quiescent)
    {counters : Counters}
    (h : Session.streamThrough options surroundings patience schedule start = .ok (.finished counters, last)) :
    Streamed schedule start last := by
  simp only [Session.streamThrough, bind_eq_ok_iff, Prod.exists] at h
  obtain ⟨feed, started, hstart, loopEnd, worked, hwork, h⟩ := h
  obtain ⟨left, hreached, hdone⟩ := Reached.operated.work (Reached.operated.start .start hstart) hwork
  cases loopEnd with
  | exhausted => cases h
  | stopped reason =>
    simp only [bind_eq_ok_iff, pure_eq_ok_iff, Prod.mk.injEq] at h
    obtain ⟨_, _, h, _⟩ := h
    cases h
  | done =>
    obtain ⟨hempty, hzero⟩ := hdone rfl
    have hquiescent := (hreached.flow schedule.program_staged hrest).quiescent hrotates hempty hzero
    simp only [bind_eq_ok_iff, pure_eq_ok_iff, Prod.exists, Prod.mk.injEq] at h
    obtain ⟨halted, hhalted, counters, read, hread, _, rfl⟩ := h
    have hoff := Recorded.halt_off hquiescent hhalted
    have hhaltReached := Reached.operated.halt hreached hhalted
    obtain ⟨hlast, hlastOff⟩ : Reached schedule.program start left last ∧ last.device.Off := by
      refine Recorded.readCounters_keeps (fun recorded =>
        Reached schedule.program start left recorded ∧ recorded.device.Off) ?_ ⟨hhaltReached, hoff⟩ hread
      intro recorded after hkept htick
      refine ⟨hkept.1.tick htick, Recorded.tick_keeps Device.Off (fun _ h => ?_) (fun _ _ _ h hturn => ?_) hkept.2 htick⟩
      · exact ⟨h.quiescent.countTick, h.enabled, h.counting⟩
      -- the counters are read after everything was turned off
      · exact hturn.off_of_off h
    exact ⟨⟨left, hlast, hempty⟩, hlastOff⟩

end Ends

end BitSerial
