import BitSerial.Proofs.Abandonment
import BitSerial.Proofs.Tally

/-! # Runs that are given up at once

A run asks clock and flag for the first time when it has filled the queues. The stages are off while it does that, so
nothing moves. If the answer is to give up, at most two cycles pass with the stages on: one for asking the result stage
what it has left, if all is pushed, and one for turning the stages off again. In the first of them a stage can take an
operation from its queues and in the second it can start it, but no operation ends before a third.
-/

namespace BitSerial

open Session (RunEnd)

/-- A stage without an operation does not come to hold regions in its next move. -/
theorem Controller.Move.held_of_idle {duration : Operation → Except Fault Nat} {controller moved : Controller}
    {handoff after : Handoff} {finished : Option Operation}
    (h : Move duration controller handoff finished moved after) (hidle : controller.activity = .idle) :
    moved.activity.held = 0 := by
  cases h with
  | stand =>
    rw [hidle]
    rfl
  | take => rfl
  | start _ hactivity => rw [hidle] at hactivity; cases hactivity
  | work _ hactivity => rw [hidle] at hactivity; cases hactivity
  | finish _ hactivity => rw [hidle] at hactivity; cases hactivity
  | handOn _ hactivity => rw [hidle] at hactivity; cases hactivity

namespace Device

variable {device after : Device} {stage : Stage}

/-- Only an operation that holds its regions can end. -/
theorem finishing?_eq_none (h : (device.stages.get stage).activity.held = 0) : device.finishing? stage = none := by
  cases hfinishing : device.finishing? stage with
  | none => rfl
  | some operation =>
    unfold finishing? Controller.finishing? at hfinishing
    cases hactivity : (device.stages.get stage).activity with
    | running operation left => rw [hactivity] at h; cases h
    | idle => simp [hactivity] at hfinishing
    | receiving operation => simp [hactivity] at hfinishing
    | sending operation => rw [hactivity] at h; cases h

/-- A turn in which nothing ends moves nothing between memory and chip. -/
theorem Turn.untouched (h : device.Turn stage after) (hnone : device.finishing? stage = none) :
    after.memory = device.memory ∧ after.statistics = device.statistics := by
  cases h with
  | off => exact ⟨rfl, rfl⟩
  | on _ _ hsettle =>
    rw [hnone] at hsettle
    cases hsettle
    exact ⟨rfl, rfl⟩

/-- A queue that is full stays full when an entry comes in. -/
theorem accept_full {stream : Stream} (entry : Entry) (h : device.full stream = true) :
    (device.accept entry).full stream = true := by
  have hkept (full : Controller → Bool) (htoken : ∀ controller token, full controller = true →
      full (controller.pushToken token) = true) (hcommand : ∀ controller command, full controller = true →
      full (controller.pushCommand command) = true) (stage : Stage) (h : full (device.stages.get stage) = true) :
      full ((device.accept entry).stages.get stage) = true := by
    refine device.accept_keeps (fun other controller => other = stage → full controller = true)
      (fun _ controller token hfull hother => htoken controller token (hfull hother))
      (fun _ controller command hfull hother => hcommand controller command (hfull hother)) ?_ entry stage rfl
    rintro _ rfl
    exact h
  cases stream with
  | token stage =>
    refine hkept Controller.tokensFull (fun controller token hfull => ?_) (fun controller command hfull => ?_) stage h
    · rw [Controller.pushToken, if_pos hfull]
      exact hfull
    · unfold Controller.pushCommand
      split <;> exact hfull
  | command stage =>
    refine hkept Controller.commandsFull (fun controller token hfull => ?_) (fun controller command hfull => ?_) stage h
    · unfold Controller.pushToken
      split <;> exact hfull
    · rw [Controller.pushCommand, if_pos hfull]
      exact hfull

end Device

namespace Recorded

variable {first recorded after : Recorded} {stage : Stage}

/-- No operation has ended since a device was in an earlier state, and nothing has moved between memory and chip. -/
structure Untouched (first recorded : Recorded) : Prop where
  memory : recorded.device.memory = first.device.memory
  bytesRead : recorded.device.statistics.bytesRead = first.device.statistics.bytesRead
  bytesWritten : recorded.device.statistics.bytesWritten = first.device.statistics.bytesWritten
  finished : ∀ stage, finishedOf stage recorded.trail = finishedOf stage first.trail

namespace Untouched

theorem refl (first : Recorded) : first.Untouched first := ⟨rfl, rfl, rfl, fun _ => rfl⟩

theorem turn (h : first.Untouched recorded) (hnone : recorded.device.finishing? stage = none)
    (hturn : recorded.turn stage = .ok after) : first.Untouched after := by
  obtain ⟨hdevice, htrail⟩ := (turn_eq_ok_iff _).mp hturn
  obtain ⟨hmemory, hstatistics⟩ := (Device.tickStage_turn _ hdevice).untouched hnone
  refine ⟨hmemory.trans h.memory, hstatistics ▸ h.bytesRead, hstatistics ▸ h.bytesWritten, fun other => ?_⟩
  rw [htrail, finishedOf_append, finishedOf_turn, h.finished other]
  split
  next hother => rw [← hother, hnone, Option.toList_none, List.append_nil]
  next => exact List.append_nil _

/-- What has become of a device is a matter of its memory and its statistics. -/
theorem of_device (h : first.Untouched recorded) {device : Device} (hmemory : device.memory = recorded.device.memory)
    (hread : device.statistics.bytesRead = recorded.device.statistics.bytesRead)
    (hwritten : device.statistics.bytesWritten = recorded.device.statistics.bytesWritten) :
    first.Untouched { recorded with device } :=
  ⟨hmemory.trans h.memory, hread.trans h.bytesRead, hwritten.trans h.bytesWritten, h.finished⟩

theorem enable (h : first.Untouched recorded) (enabled : PerStage Bool) :
    first.Untouched { recorded with device := { recorded.device with enabled } } := h.of_device rfl rfl rfl

theorem switch (h : first.Untouched recorded) (counting : Bool) :
    first.Untouched { recorded with device := recorded.device.switch counting } := by
  obtain ⟨-, -, hmemory, hstatistics⟩ := recorded.device.switch_frame counting
  exact h.of_device hmemory (congrArg Statistics.bytesRead hstatistics) (congrArg Statistics.bytesWritten hstatistics)

/-- A reset is not the end of an operation. -/
theorem reset (h : first.Untouched recorded) : first.Untouched (Accelerator.reset recorded) where
  memory := h.memory
  bytesRead := h.bytesRead
  bytesWritten := h.bytesWritten
  finished stage := by
    change finishedOf stage (recorded.trail ++ [.reset recorded.device]) = _
    rw [finishedOf_append, h.finished]
    exact List.append_nil _

/-- With the stages off, a cycle comes through and is only counted. -/
theorem tick_of_disabled (h : first.Untouched recorded) (hdisabled : recorded.device.enabled = .all false) :
    ∃ after, recorded.tick = .ok after ∧ first.Untouched after ∧ after.device = recorded.device.countTick := by
  have hturn {current : Recorded} (stage : Stage)
      (h : first.Untouched current ∧ current.device = recorded.device.countTick) :
      ∃ next, current.turn stage = .ok next ∧ first.Untouched next ∧ next.device = recorded.device.countTick := by
    have hoff : ¬ current.device.enabled.get stage = true := by
      rw [h.2]
      change ¬ recorded.device.enabled.get stage = true
      rw [hdisabled, PerStage.get_all]
      exact Bool.false_ne_true
    have hturn : current.turn stage = .ok ⟨current.device, current.trail ++ [.turn stage current.device]⟩ :=
      (turn_eq_ok_iff _).mpr ⟨if_neg hoff, rfl⟩
    exact ⟨_, hturn, h.1.turn (if_neg hoff) hturn, h.2⟩
  have hcounted : first.Untouched recorded.countTick := h.of_device rfl rfl rfl
  obtain ⟨fetched, hfetch, hfetched⟩ := hturn .fetch ⟨hcounted, rfl⟩
  obtain ⟨executed, hexecute, hexecuted⟩ := hturn .execute hfetched
  obtain ⟨after, hresult, hafter⟩ := hturn .result hexecuted
  exact ⟨after, (tick_eq_ok_iff _).mpr ⟨fetched, executed, hfetch, hexecute, hresult⟩, hafter⟩

end Untouched

/-- In a cycle in which no stage holds regions before, no stage holds any when its turn comes. What such turns come to,
the cycle comes to. -/
theorem tick_of_held {keeps : Recorded → Prop} (hcount : keeps recorded.countTick)
    (hturn : ∀ {current : Recorded} (stage : Stage), keeps current →
      (current.device.stages.get stage).activity.held = 0 → ∃ next, current.turn stage = .ok next ∧ keeps next)
    (hheld : ∀ stage, (recorded.device.stages.get stage).activity.held = 0) :
    ∃ after, recorded.tick = .ok after ∧ keeps after := by
  obtain ⟨fetched, hfetch, hfetched⟩ := hturn .fetch hcount (hheld .fetch)
  have hfetchTurn := Device.tickStage_turn _ ((turn_eq_ok_iff _).mp hfetch).1
  have hexecuteHeld : (fetched.device.stages.get .execute).activity.held = 0 := by
    rw [hfetchTurn.stage_of_ne (by decide)]
    exact hheld .execute
  obtain ⟨executed, hexecute, hexecuted⟩ := hturn .execute hfetched hexecuteHeld
  have hexecuteTurn := Device.tickStage_turn _ ((turn_eq_ok_iff _).mp hexecute).1
  have hresultHeld : (executed.device.stages.get .result).activity.held = 0 := by
    rw [hexecuteTurn.stage_of_ne (by decide), hfetchTurn.stage_of_ne (by decide)]
    exact hheld .result
  obtain ⟨after, hresult, hafter⟩ := hturn .result hexecuted hresultHeld
  exact ⟨after, (tick_eq_ok_iff _).mpr ⟨fetched, executed, hfetch, hexecute, hresult⟩, hafter⟩

/-- A device whose stages were not turned on since an earlier state, in which they had no operation. -/
structure Waiting (first recorded : Recorded) : Prop extends first.Untouched recorded where
  enabled : recorded.device.enabled = .all false
  idle : ∀ stage, (recorded.device.stages.get stage).activity = .idle

namespace Waiting

theorem start (hoff : first.device.Off) : first.Waiting first :=
  ⟨.refl first, hoff.enabled, hoff.quiescent.activity⟩

/-- With the stages off, every cycle comes through. -/
theorem tick (h : first.Waiting recorded) : ∃ after, recorded.tick = .ok after ∧ first.Waiting after := by
  obtain ⟨after, htick, huntouched, hdevice⟩ := h.toUntouched.tick_of_disabled h.enabled
  exact ⟨after, htick, huntouched, hdevice ▸ h.enabled, hdevice ▸ h.idle⟩

theorem of_tick (h : first.Waiting recorded) (htick : recorded.tick = .ok after) : first.Waiting after := by
  obtain ⟨ticked, hticked, hwaiting⟩ := h.tick
  cases htick.symm.trans hticked
  exact hwaiting

theorem accept (h : first.Waiting recorded) (entry : Entry) :
    first.Waiting { recorded with device := recorded.device.accept entry } := by
  have hidle (stage : Stage) : ((recorded.device.accept entry).stages.get stage).activity = .idle :=
    (recorded.device.accept_sequencers entry stage).1.trans (h.idle stage)
  cases entry <;> exact ⟨h.toUntouched.of_device rfl rfl rfl, h.enabled, hidle⟩

theorem switch (h : first.Waiting recorded) (counting : Bool) :
    first.Waiting { recorded with device := recorded.device.switch counting } := by
  refine ⟨h.toUntouched.switch counting, (recorded.device.switch_frame counting).2.1.trans h.enabled, fun stage => ?_⟩
  exact (recorded.device.switch_sequencers counting stage).1.trans (h.idle stage)

theorem disable (h : first.Waiting recorded) :
    ∃ after, Accelerator.setEnabled (.all false) recorded = .ok after ∧ first.Waiting after := by
  obtain ⟨ticked, hticked, hwaiting⟩ := h.tick
  have huntouched := hwaiting.toUntouched.enable (.all false)
  exact ⟨_, setEnabled_eq_ok_iff.mpr ⟨ticked, hticked, rfl⟩, huntouched, rfl, hwaiting.idle⟩

theorem enable (h : first.Waiting recorded) :
    ∃ after, Accelerator.setEnabled (.all true) recorded = .ok after ∧ first.Untouched after ∧
      (∀ stage, (after.device.stages.get stage).activity = .idle) ∧ after.device.enabled = .all true := by
  obtain ⟨ticked, hticked, hwaiting⟩ := h.tick
  have huntouched := hwaiting.toUntouched.enable (.all true)
  exact ⟨_, setEnabled_eq_ok_iff.mpr ⟨ticked, hticked, rfl⟩, huntouched, hwaiting.idle, rfl⟩

theorem setCounting (h : first.Waiting recorded) (counting : Bool) :
    ∃ after, Accelerator.setCounting counting recorded = .ok after ∧ first.Waiting after := by
  obtain ⟨ticked, hticked, hwaiting⟩ := h.tick
  exact ⟨_, setCounting_eq_ok_iff.mpr ⟨ticked, hticked, rfl⟩, hwaiting.switch counting⟩

theorem driven (first : Recorded) : Driven fun _ recorded => first.Waiting recorded := by
  have hpush {recorded after : Recorded} {entry : Entry} (h : first.Waiting recorded)
      (hpush : Transport.push entry recorded = .ok after) : first.Waiting after := by
    obtain ⟨ticked, hticked, rfl⟩ := push_eq_ok_iff.mp hpush
    exact (h.of_tick hticked).accept entry
  exact ⟨of_tick, fun h _ _ => hpush h, fun h _ _ => hpush h⟩

/-- The same, as what polls and pushes keep. -/
theorem keeps (first : Recorded) : Feed.Keeps fun _ recorded => first.Waiting recorded where
  refused h hpoll := h.of_tick (poll_eq_ok_iff.mp hpoll).1
  taken h _ hpoll hpush := by
    obtain ⟨ticked, hticked, rfl⟩ := push_eq_ok_iff.mp hpush
    exact ((h.of_tick (poll_eq_ok_iff.mp hpoll).1).of_tick hticked).accept _

end Waiting

/-- A stream is at its end, or its queue is full. -/
def Topped (first : Recorded) (stream : Stream) (left : Stream → List Entry) (recorded : Recorded) : Prop :=
  left stream = [] ∨ first.Waiting recorded ∧ recorded.device.full stream = true

theorem Topped.keeps (first : Recorded) (stream : Stream) : Feed.Keeps (first.Topped stream) where
  refused h hpoll := by
    refine h.imp_right fun ⟨hwaiting, hfull⟩ => ?_
    have htick := (poll_eq_ok_iff.mp hpoll).1
    refine ⟨hwaiting.of_tick htick, ?_⟩
    rw [tick_of_disabled hwaiting.enabled htick]
    exact hfull
  taken {left _ _ _ asked entry rest} h hnext hpoll hpush := by
    rcases h with hnil | ⟨hwaiting, hfull⟩
    · have hother : stream ≠ asked := by
        rintro rfl
        rw [hnil] at hnext
        cases hnext
      exact .inl ((Function.update_of_ne hother rest left).trans hnil)
    · have htick := (poll_eq_ok_iff.mp hpoll).1
      obtain ⟨ticked, hticked, rfl⟩ := push_eq_ok_iff.mp hpush
      have hpolled := hwaiting.of_tick htick
      refine .inr ⟨(hpolled.of_tick hticked).accept entry, Device.accept_full entry ?_⟩
      rw [tick_of_disabled hpolled.enabled hticked, tick_of_disabled hwaiting.enabled htick]
      exact hfull

end Recorded

section Filling

variable {programs : Stage → List Operation} {first recorded after : Recorded} {left : Backlog}

/-- While nothing has ended, every stage is at the beginning of its program. -/
theorem Reached.doneSince_eq_zero (hstaged : Staged programs) (hrest : first.device.Quiescent)
    (h : Reached programs first left recorded) (huntouched : first.Untouched recorded) (stage : Stage) :
    first.device.doneSince recorded.device stage = 0 := by
  have hfinished := h.finished hstaged hrest stage
  rw [huntouched.finished, List.self_eq_append_right, List.take_eq_nil_iff] at hfinished
  have hposition := ((h.flow hstaged hrest).lane stage).position_le
  rcases hfinished with hnone | hempty
  · omega
  · rw [hempty] at hposition
    exact Nat.le_zero.mp hposition

/-- What is queued and what is left make up the programs. -/
theorem Reached.queued_add_left (hstaged : Staged programs) (hrest : first.device.Quiescent)
    (h : Reached programs first left recorded) (hwaiting : first.Waiting recorded) (stage : Stage) :
    (recorded.device.stages.get stage).tokens.length + (left.tokens.get stage).length = (programs stage).length ∧
      (recorded.device.stages.get stage).commands.length + (left.commands.get stage).length =
        (programs stage).length := by
  have hlane := (h.flow hstaged hrest).lane stage
  rw [h.doneSince_eq_zero hstaged hrest hwaiting.toUntouched] at hlane
  obtain ⟨htokens, hcommands⟩ := hlane.length_eq
  rw [hwaiting.idle, Activity.taken, Nat.zero_add] at htokens hcommands
  exact ⟨htokens, hcommands⟩

variable {schedule : Schedule} {feed fed : Feed}

/-- The pass that fills the queues while the stages are off leaves what does not fit them. -/
theorem filled_left (hrest : first.device.Quiescent) (hreached : Reached schedule.program first fed.backlog after)
    (hwaiting : first.Waiting recorded) (hfill : feed.fill recorded = .ok (fed, after)) (stage : Stage) :
    (fed.tokens.get stage).length = (schedule.program stage).length - (first.device.stages.get stage).depth ∧
      (fed.commands.get stage).length = (schedule.program stage).length - (first.device.stages.get stage).depth := by
  have hafter : first.Waiting after := (Recorded.Waiting.keeps first).fill hwaiting hfill
  obtain ⟨htokens, hcommands⟩ := hreached.queued_add_left schedule.program_staged hrest hafter stage
  have hdepth := ((hreached.ledger schedule.program_staged hrest).stages stage).2
  obtain ⟨htokensRoom, hcommandsRoom⟩ := hreached.withinDepth hrest stage
  change _ + (fed.tokens.get stage).length = _ at htokens
  change _ + (fed.commands.get stage).length = _ at hcommands
  -- a stream that the pass has not exhausted was refused, and its queue is still full
  have htopped (stream : Stream) : (fed.left stream).length = 0 ∨ after.device.full stream = true := by
    have htopped : first.Topped stream fed.left after := by
      refine (Recorded.Waiting.keeps first).fill_raises (Recorded.Topped.keeps first stream) .inl ?_ hwaiting hfill
      intro _ _ _ hpolled hpoll
      obtain ⟨htick, hfull⟩ := Recorded.poll_eq_ok_iff.mp hpoll
      exact .inr ⟨hpolled.of_tick htick, hfull⟩
    exact htopped.imp List.length_eq_zero_iff.mpr And.right
  rw [← hdepth]
  constructor
  · rcases htopped (.token stage) with hnone | hfull
    · rw [Feed.length_left] at hnone
      change (fed.tokens.get stage).length = 0 at hnone
      omega
    · have hfull : _ ≤ (after.device.stages.get stage).tokens.length := of_decide_eq_true hfull
      omega
  · rcases htopped (.command stage) with hnone | hfull
    · rw [Feed.length_left] at hnone
      change (fed.commands.get stage).length = 0 at hnone
      omega
    · have hfull : _ ≤ (after.device.stages.get stage).commands.length := of_decide_eq_true hfull
      omega

/-- A run that begins fills the queues and turns the stages on, and nothing moves. -/
structure Session.Primed (schedule : Schedule) (first : Recorded) (feed : Feed) (recorded : Recorded) : Prop where
  reached : Reached schedule.program first feed.backlog recorded
  untouched : first.Untouched recorded
  idle : ∀ stage, (recorded.device.stages.get stage).activity = .idle
  enabled : recorded.device.enabled = .all true
  left : ∀ stage,
    (feed.tokens.get stage).length = (schedule.program stage).length - (first.device.stages.get stage).depth ∧
      (feed.commands.get stage).length = (schedule.program stage).length - (first.device.stages.get stage).depth

/-- All is pushed from the beginning if no program is longer than its queues. -/
theorem Session.Primed.allPushed (h : Session.Primed schedule first feed recorded) :
    feed.allPushed = true ↔ ∀ stage, (schedule.program stage).length ≤ (first.device.stages.get stage).depth := by
  rw [Feed.allPushed_iff]
  refine forall_congr' fun stage => ?_
  obtain ⟨htokens, hcommands⟩ := h.left stage
  change feed.tokens.get stage = [] ∧ feed.commands.get stage = [] ↔ _
  rw [← List.length_eq_zero_iff, ← List.length_eq_zero_iff, htokens, hcommands]
  omega

theorem Session.start_primed (schedule : Schedule) (hoff : first.device.Off) :
    ∃ feed after, Session.start schedule first = .ok (feed, after) ∧ Session.Primed schedule first feed after := by
  obtain ⟨disabled, hdisable, hdisabled⟩ := (Recorded.Waiting.start hoff).disable
  have hfill : ∃ found, (Feed.ofSchedule schedule).fill disabled = .ok found :=
    (Recorded.Waiting.driven first).fill_total (fun h => h.tick.imp fun _ => And.left) hdisabled
  obtain ⟨⟨feed, filled⟩, hfill⟩ := hfill
  have hfilled : first.Waiting filled := (Recorded.Waiting.driven first).fill hdisabled hfill
  obtain ⟨counting, hcount, hcounting⟩ := hfilled.setCounting true
  obtain ⟨enabled, henable, huntouched, hidle, hon⟩ := hcounting.enable
  have hfilledReached : Reached schedule.program first feed.backlog filled := by
    have hdisabledReached := Reached.operated.enable (.start : Reached schedule.program first _ first) hdisable
    rw [← Feed.ofSchedule_backlog] at hdisabledReached
    exact Reached.operated.fill hdisabledReached hfill
  refine ⟨feed, enabled, ?_, ?_⟩
  · simp only [Session.start, bind_eq_ok_iff, pure_eq_ok_iff, Prod.exists, Prod.mk.injEq]
    exact ⟨disabled, hdisable, feed, filled, hfill, counting, hcount, enabled, henable, rfl, rfl⟩
  · constructor
    case reached => exact Reached.operated.enable (Reached.operated.switch hfilledReached hcount) henable
    case untouched => exact huntouched
    case idle => exact hidle
    case enabled => exact hon
    case left => exact filled_left hoff.quiescent hfilledReached hdisabled hfill

end Filling

section Ending

variable {schedule : Schedule} {steps : Nat} {first recorded : Recorded} {left : Backlog} {feed : Feed}

/-- No cycle faults in which nothing can end. -/
theorem Reached.tick_of_held (hrotates : schedule.Rotates steps) (hrest : first.device.Quiescent)
    (hfits : ∀ stage, ∀ operation ∈ schedule.program stage, operation.command.Fits)
    (h : Reached schedule.program first left recorded) (huntouched : first.Untouched recorded)
    (hheld : ∀ stage, (recorded.device.stages.get stage).activity.held = 0) :
    ∃ after, recorded.tick = .ok after ∧ Reached schedule.program first left after ∧ first.Untouched after := by
  refine Recorded.tick_of_held ⟨h.count, huntouched.of_device rfl rfl rfl⟩ (fun {current} stage hkept hheld => ?_) hheld
  have hflow := hkept.1.flow schedule.program_staged hrest
  have hnone := Device.finishing?_eq_none hheld
  have hdevice : ∃ after, current.device.tickStage stage = .ok after := by
    refine Device.tickStage_total (hflow.few hrotates) (fun operation hflight => ?_) (fun operation hfinishing => ?_)
    · exact hfits stage operation (List.mem_of_getElem? ((hflow.lane stage).inFlight operation hflight))
    · rw [hnone] at hfinishing
      cases hfinishing
  obtain ⟨after, hafter⟩ := hdevice
  have hturn : current.turn stage = .ok ⟨after, current.trail ++ [.turn stage current.device]⟩ :=
    (Recorded.turn_eq_ok_iff _).mpr ⟨hafter, rfl⟩
  exact ⟨_, hturn, hkept.1.turn hturn, hkept.2.turn hnone hturn⟩

/-- A result stage that has done nothing has all that was pushed to it. -/
theorem Reached.outstanding_eq (hrest : first.device.Quiescent) (h : Reached schedule.program first left recorded)
    (hempty : left.Empty) (hnone : first.device.doneSince recorded.device .result = 0) :
    (recorded.device.stages.get .result).outstanding = Word32.add schedule.result.length 0 := by
  have hlane := (h.flow schedule.program_staged hrest).lane .result
  rw [hnone, (hempty .result).1, (hempty .result).2] at hlane
  have hlength := hlane.length_eq.1
  rw [schedule.program_result_length, List.length_nil] at hlength
  have hsum : (recorded.device.stages.get .result).tokens.length +
      (if (recorded.device.stages.get .result).activity.operation?.isSome then 1 else 0) = schedule.result.length := by
    rw [← Activity.taken_eq]
    omega
  unfold Controller.outstanding Word32.add
  rw [hsum, Nat.add_zero]

variable {options : Options} {surroundings : Surroundings} {reason : RunPhase → Refusal}

/-- The phase in which a run asks for the first time: it is still pushing if some program is longer than its queues. -/
theorem Session.Primed.work_stopped (h : Session.Primed schedule first feed recorded)
    (hrotates : schedule.Rotates steps) (hrest : first.device.Quiescent)
    (hfits : ∀ stage, ∀ operation ∈ schedule.program stage, operation.command.Fits)
    (hresult : 0 < schedule.result.length) (hdepth : (first.device.stages.get .result).depth < Word32.size)
    (hstops : ∀ phase, options.stop? (surroundings 0) phase = some (reason phase)) (patience : Nat) :
    ∃ left worked, Session.work options surroundings (patience + 1) feed recorded =
        .ok (.stopped (reason (if feed.allPushed then .completion else .push)), worked) ∧
      Reached schedule.program first left worked ∧ first.Untouched worked ∧
        ∀ stage, (worked.device.stages.get stage).activity.held = 0 := by
  have hheld (stage : Stage) : (recorded.device.stages.get stage).activity.held = 0 := by
    rw [h.idle]
    rfl
  by_cases hpushed : feed.allPushed = true
  · obtain ⟨polled, htick, hreached, huntouched⟩ := h.reached.tick_of_held hrotates hrest hfits h.untouched hheld
    have hpolledHeld (stage : Stage) : (polled.device.stages.get stage).activity.held = 0 := by
      obtain ⟨_, _, _, hmove⟩ := Device.tick_moves h.enabled (Recorded.device_tick htick) stage
      exact hmove.held_of_idle ((Controller.counted_activity _ _).trans (h.idle stage))
    have hshort := h.allPushed.mp hpushed .result
    rw [schedule.program_result_length] at hshort
    have hnone := hreached.doneSince_eq_zero schedule.program_staged hrest huntouched .result
    have hcount := hreached.outstanding_eq hrest ((Feed.allPushed_iff feed).mp hpushed) hnone
    have hfew : Word32.add schedule.result.length 0 = .ok schedule.result.length :=
      Word32.add_eq_ok_iff.mpr ⟨Nat.lt_of_le_of_lt hshort hdepth, rfl⟩
    have hpoll := Recorded.outstanding_eq_ok_iff.mpr ⟨htick, hcount.trans hfew⟩
    refine ⟨feed.backlog, polled, ?_, hreached, huntouched, hpolledHeld⟩
    rw [Session.work, Session.feedAll_allPushed hpushed, if_pos hpushed]
    change Session.awaitResult options surroundings (patience + 1) 0 recorded = _
    rw [Session.awaitResult]
    refine bind_eq_ok_iff.mpr ⟨_, hpoll, ?_⟩
    simp only [if_neg (Nat.ne_of_gt hresult), hstops]
    rfl
  · refine ⟨feed.backlog, recorded, ?_, h.reached, h.untouched, hheld⟩
    rw [Session.work, Session.feedAll, if_neg hpushed, if_neg hpushed, hstops]
    rfl

/-- The stages are turned off before anything ends. -/
theorem Reached.halt_untouched (hrotates : schedule.Rotates steps) (hrest : first.device.Quiescent)
    (hfits : ∀ stage, ∀ operation ∈ schedule.program stage, operation.command.Fits)
    (h : Reached schedule.program first left recorded) (huntouched : first.Untouched recorded)
    (hheld : ∀ stage, (recorded.device.stages.get stage).activity.held = 0) :
    ∃ halted, Session.halt recorded = .ok halted ∧ first.Untouched halted := by
  obtain ⟨ticked, htick, -, hticked⟩ := h.tick_of_held hrotates hrest hfits huntouched hheld
  have hdisable : Accelerator.setEnabled (.all false) recorded =
      .ok { ticked with device := { ticked.device with enabled := .all false } } :=
    Recorded.setEnabled_eq_ok_iff.mpr ⟨ticked, htick, rfl⟩
  obtain ⟨last, hlast, huntouchedLast, -⟩ := (hticked.enable (.all false)).tick_of_disabled rfl
  have hcount : Accelerator.setCounting false { ticked with device := { ticked.device with enabled := .all false } } =
      .ok { last with device := last.device.switch false } :=
    Recorded.setCounting_eq_ok_iff.mpr ⟨last, hlast, rfl⟩
  exact ⟨_, bind_eq_ok_iff.mpr ⟨_, hdisable, hcount⟩, huntouchedLast.switch false⟩

/-- A schedule whose streaming is given up at the first reading. It is still pushed then if it has more steps than a
queue has entries. -/
theorem Session.streamThrough_given_up (hrotates : schedule.Rotates steps) (hoff : first.device.Off)
    (hfits : ∀ stage, ∀ operation ∈ schedule.program stage, operation.command.Fits)
    (hsteps : 0 < steps) (hresult : 0 < schedule.result.length) {depth : Nat}
    (hdepth : ∀ stage, (first.device.stages.get stage).depth = depth) (hword : depth < Word32.size)
    (hstops : ∀ phase, options.stop? (surroundings 0) phase = some (reason phase)) (patience : Nat) :
    ∃ last, Session.streamThrough options surroundings (patience + 1) schedule first =
        .ok (.stopped (reason (if depth < schedule.result.length * steps then .push else .completion)), last) ∧
      first.Untouched last := by
  obtain ⟨feed, started, hstart, hprimed⟩ := Session.start_primed schedule hoff
  obtain ⟨left, worked, hwork, hreached, huntouched, hheld⟩ := hprimed.work_stopped hrotates hoff.quiescent hfits
    hresult (hdepth .result ▸ hword) hstops patience
  obtain ⟨halted, hhalt, huntouched⟩ := hreached.halt_untouched hrotates hoff.quiescent hfits huntouched hheld
  have hphase : (if feed.allPushed then RunPhase.completion else .push) =
      if depth < schedule.result.length * steps then .push else .completion := by
    have hpushed : feed.allPushed = true ↔ schedule.result.length * steps ≤ depth := by
      have hlonger := Nat.le_mul_of_pos_right schedule.result.length hsteps
      rw [hprimed.allPushed, ← hrotates.execute_length]
      rw [← hrotates.execute_length] at hlonger
      constructor
      · intro hshort
        rw [← hdepth .execute, ← schedule.program_execute_length]
        exact hshort .execute
      · intro hshort stage
        rw [hdepth]
        cases stage with
        | fetch => rwa [schedule.program_fetch_length, hrotates.fetch_length]
        | execute => rwa [schedule.program_execute_length]
        | result => exact schedule.program_result_length ▸ Nat.le_trans hlonger hshort
    by_cases hall : feed.allPushed = true
    · rw [if_pos hall, if_neg (Nat.not_lt.mpr (hpushed.mp hall))]
    · rw [if_neg hall, if_pos (Nat.not_le.mp fun hshort => hall (hpushed.mpr hshort))]
  refine ⟨Accelerator.reset halted, ?_, huntouched.reset⟩
  rw [hphase] at hwork
  exact bind_eq_ok_iff.mpr ⟨_, hstart, bind_eq_ok_iff.mpr ⟨_, hwork, bind_eq_ok_iff.mpr ⟨halted, hhalt, rfl⟩⟩⟩

end Ending

/-- The loop in which a run asks clock and flag for the first time. -/
def Session.firstPhase (session : Session) : RunPhase :=
  if session.geometry.queueEntries < session.layout.nest.outputCount * session.layout.nest.stepCount then .push
  else .completion

/-- A run that the first reading tells to end. -/
theorem Watch.Sound.run_given_up {device : Device} {watch : Watch} (h : watch.Sound device) (hused : device.Used)
    (hgeometry : device.geometry.Fits) {surroundings : Surroundings} {reason : RunPhase → Refusal}
    (hstops : ∀ phase, watch.session.options.stop? (surroundings 0) phase = some (reason phase)) {patience : Nat}
    (hpatience : 0 < patience) :
    Settles .overflow (¬ watch.session.layout.Counts watch.session.residency) (watch.run patience surroundings)
      fun found => found.1 = .refused (reason watch.session.firstPhase) ∧
        watch.recorded.Untouched found.2.recorded := by
  rcases h.nextSchedule_settles hused with ⟨⟨schedule, residency⟩, hschedule, -⟩ | ⟨hstopped, hfull⟩
  · obtain ⟨bandPairs, steps, results, hwritten⟩ := Layout.schedule_written hschedule
    have hcuts := h.placed.cuts
    have hdepth (stage : Stage) :
        (watch.recorded.device.stages.get stage).depth = watch.session.geometry.queueEntries :=
      h.queues hused stage
    have hword : watch.session.geometry.queueEntries < Word32.size := h.placed.array ▸ hgeometry.queueEntries
    obtain ⟨patience, rfl⟩ := Nat.exists_eq_add_one_of_ne_zero (Nat.ne_of_gt hpatience)
    obtain ⟨last, hstream, huntouched⟩ := Session.streamThrough_given_up hwritten.rotates h.off
      (fun stage operation => hwritten.fits hcuts h.placed.result h.placed.result_end) hcuts.stepCount_pos
      (hwritten.result_length ▸ hcuts.outputCount_pos) hdepth hword hstops patience
    rw [hwritten.result_length] at hstream
    have hrun : watch.run (patience + 1) surroundings = .ok (.refused (reason watch.session.firstPhase),
        { watch with
          session := { watch.session with device := last.device, residency := residency.invalidateAll }
          trail := last.trail }) :=
      bind_eq_ok_iff.mpr ⟨_, settle_eq_ok_iff.mpr hschedule, bind_eq_ok_iff.mpr ⟨_, hstream, rfl⟩⟩
    exact .ok hrun ⟨rfl, huntouched⟩
  · refine .inr ⟨?_, hfull⟩
    rw [Watch.run, hstopped]
    rfl

/-- A run that is cancelled from the beginning, or that has no time at all, is given up at its first reading, and says
in which of its loops that was. Cancellation comes before the deadline. Nothing of its schedule is done: no operation
ends, and memory and the counts of bytes stay as they were. There is one way out: the tracker may be full, so that the
schedule cannot be written. -/
theorem run_given_up_at_once {device : Device} {watch : Watch} (hused : device.Used)
    (hgeometry : device.geometry.Fits) (hhistory : History device watch) {patience : Nat} (hpatience : 0 < patience)
    (surroundings : Surroundings) :
    (watch.session.options.cancellable = true → (surroundings 0).cancelled = true →
      Settles .overflow (¬ watch.session.layout.Counts watch.session.residency) (watch.run patience surroundings)
        fun found => found.1 = .refused (.cancelled watch.session.firstPhase) ∧
          watch.recorded.Untouched found.2.recorded) ∧
    (watch.session.options.timeout = some 0 →
      ¬ (watch.session.options.cancellable = true ∧ (surroundings 0).cancelled = true) →
      Settles .overflow (¬ watch.session.layout.Counts watch.session.residency) (watch.run patience surroundings)
        fun found => found.1 = .refused (.timedOut watch.session.firstPhase) ∧
          watch.recorded.Untouched found.2.recorded) := by
  constructor
  · intro hcancellable hcancelled
    have hstops (phase : RunPhase) :
        watch.session.options.stop? (surroundings 0) phase = some (.cancelled phase) :=
      if_pos ⟨hcancellable, hcancelled⟩
    exact hhistory.sound.run_given_up hused hgeometry hstops hpatience
  · intro htimeout hflag
    have hstops (phase : RunPhase) :
        watch.session.options.stop? (surroundings 0) phase = some (.timedOut phase) := by
      rw [Options.stop?, if_neg hflag, htimeout]
      exact if_pos (Nat.zero_le _)
    exact hhistory.sound.run_given_up hused hgeometry hstops hpatience

/-- A session that has just begun, heeds the flag and gives its runs no time. -/
def Watch.hurried (session : Session) : Watch :=
  { Watch.begin session with session := { session with options := ⟨some 0, true⟩ } }

/-- The small product has as many steps as fit the queues, so it is given up while it waits: cancelled if the flag is
raised, and timed out if not. -/
theorem run_given_up_at_once_small :
    ∃ session cancelled timedOut, smallSession = some session ∧
      (Watch.hurried session).run 1 (.still true) = .ok (.refused (.cancelled .completion), cancelled) ∧
      (Watch.hurried session).recorded.Untouched cancelled.recorded ∧
      (Watch.hurried session).run 1 (.still false) = .ok (.refused (.timedOut .completion), timedOut) ∧
      (Watch.hurried session).recorded.Untouched timedOut.recorded := by
  have hruns : (smallSession.bind fun session =>
      ((Watch.hurried session).run 1 (.still true)).toOption.bind fun cancelled =>
        ((Watch.hurried session).run 1 (.still false)).toOption.bind fun timedOut =>
          cancelled.1.refusal?.bind fun first => timedOut.1.refusal?.map fun second => (first, second)) =
      some (.cancelled .completion, .timedOut .completion) := by
    decide +kernel
  obtain ⟨session, hsession, hruns⟩ := Option.bind_eq_some_iff.mp hruns
  obtain ⟨⟨cancelledEnd, cancelled⟩, hcancelled, hruns⟩ := Option.bind_eq_some_iff.mp hruns
  obtain ⟨⟨timedOutEnd, timedOut⟩, htimedOut, hruns⟩ := Option.bind_eq_some_iff.mp hruns
  obtain ⟨first, hfirst, hruns⟩ := Option.bind_eq_some_iff.mp hruns
  obtain ⟨second, hsecond, hruns⟩ := Option.map_eq_some_iff.mp hruns
  obtain ⟨rfl, rfl⟩ := Prod.mk.inj hruns
  obtain rfl : cancelledEnd = _ := Session.RunEnd.eq_refused hfirst
  obtain rfl : timedOutEnd = _ := Session.RunEnd.eq_refused hsecond
  have hcancelled := toOption_eq_some_iff.mp hcancelled
  have htimedOut := toOption_eq_some_iff.mp htimedOut
  have hhistory : History (.ofGeometry .reference) (Watch.hurried session) :=
    .configure (.attach (smallSession_attached hsession)) ⟨some 0, true⟩
  have hfits : Geometry.reference.Fits := by constructor <;> decide
  have hused : (Device.ofGeometry .reference).Used := .made .reference expectedSignature defaultClock
  have hgiven := @run_given_up_at_once _ _ hused hfits hhistory 1 (by decide)
  exact ⟨session, cancelled, timedOut, hsession, hcancelled,
    (((hgiven (.still true)).1 rfl rfl).asked_of_ok hcancelled).2, htimedOut,
    (((hgiven (.still false)).2 rfl nofun).asked_of_ok htimedOut).2⟩

end BitSerial
