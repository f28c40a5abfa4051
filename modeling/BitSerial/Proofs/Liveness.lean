import BitSerial.Proofs.Progress

/-! # Loops that end

A host that feeds a device and then waits for its result stage gets somewhere with every pass and with every poll: the
moves that are left and the entries that are left to push become fewer. Both loops of a run therefore end, however deep
the queues are and however long the clock and the flag are asked.
-/

namespace BitSerial

theorem Device.Lasting.moves : Lasting fun device => ∀ stage, (device.stages.get stage).stalled = false where
  count h := h
  turn h hturn stage := (hturn.frame stage).2.1.trans (h stage)
  accept {_ entry} h := by
    refine Device.accept_keeps _ (fun _ controller => controller.stalled = false) (fun _ controller token h => ?_)
      (fun _ controller command h => ?_) h entry
    · unfold Controller.pushToken
      split <;> exact h
    · unfold Controller.pushCommand
      split <;> exact h

theorem Device.Lasting.unhindered : Lasting Device.Unhindered where
  count h := ⟨h.enabled, h.moves⟩
  turn h hturn := hturn.unhindered h
  accept {_ entry} h := ⟨by cases entry <;> exact h.enabled, moves.accept h.moves⟩

/-- What is left to push does not become more. -/
theorem Backlog.count_driven (bound : Nat) : Driven fun left _ => left.tokenCount + left.commandCount ≤ bound where
  tick h _ := h
  pushToken {left _ _ stage _ rest} h hnext _ _ := by
    have hcount := tokenCount_withTokens hnext
    exact Nat.le_trans (Nat.add_le_add_right (by omega) (left.withTokens rest stage).commandCount) h
  pushCommand {left _ _ stage _ rest} h hnext _ _ := by
    have hcount := commandCount_withCommands hnext
    exact Nat.le_trans (Nat.add_le_add_left (by omega) (left.withCommands rest stage).tokenCount) h

/-- A schedule that a device can be driven through from a state at rest. -/
structure Runnable (schedule : Schedule) (steps : Nat) (start : Recorded) : Prop where
  rotates : schedule.Rotates steps
  steps_pos : 0 < steps
  off : start.device.Off
  moves : ∀ stage, (start.device.stages.get stage).stalled = false
  bearable : Bearable schedule.program start.device
  depth : ∀ stage, 0 < (start.device.stages.get stage).depth

/-- A device that a schedule is streamed through and that nothing holds up. -/
def Live (schedule : Schedule) (start : Recorded) (left : Backlog) (recorded : Recorded) : Prop :=
  Reached schedule.program start left recorded ∧ recorded.device.Unhindered

/-- What is left to be done: the moves of the stages, and the entries to be pushed. -/
def effort (schedule : Schedule) (start : Device) (left : Backlog) (device : Device) : Nat :=
  device.movesLeft schedule.program start + (left.tokenCount + left.commandCount)

/-- The result stage may come to hold more operations than a 32-bit register can say. -/
def Schedule.Overcrowds (schedule : Schedule) (device : Device) : Prop :=
  Word32.size ≤ (device.stages.get .result).depth + 1 ∧ Word32.size ≤ schedule.result.length

/-- A stage whose queues hold no more than their depth. -/
def Controller.WithinDepth (controller : Controller) : Prop :=
  controller.tokens.length ≤ controller.depth ∧ controller.commands.length ≤ controller.depth

theorem Controller.WithinDepth.pushToken {controller : Controller} (h : controller.WithinDepth) (token : Token) :
    (controller.pushToken token).WithinDepth := by
  unfold Controller.pushToken
  split
  next => exact h
  next hroom =>
    simp only [Controller.tokensFull, decide_eq_true_eq, Nat.not_le] at hroom
    refine ⟨?_, h.2⟩
    rw [Queue.length_push]
    exact hroom

theorem Controller.WithinDepth.pushCommand {controller : Controller} (h : controller.WithinDepth) (command : Command) :
    (controller.pushCommand command).WithinDepth := by
  unfold Controller.pushCommand
  split
  next => exact h
  next hroom =>
    simp only [Controller.commandsFull, decide_eq_true_eq, Nat.not_le] at hroom
    refine ⟨h.1, ?_⟩
    rw [Queue.length_push]
    exact hroom

/-- No queue comes to hold more entries than its depth. -/
theorem Reached.withinDepth {programs : Stage → List Operation} {start recorded : Recorded} {left : Backlog}
    (hrest : start.device.Quiescent) (h : Reached programs start left recorded) (stage : Stage) :
    (recorded.device.stages.get stage).WithinDepth := by
  have haccept {device : Device} (h : ∀ stage, (device.stages.get stage).WithinDepth) (entry : Entry) :
      ∀ stage, ((device.accept entry).stages.get stage).WithinDepth :=
    device.accept_keeps (fun _ controller => controller.WithinDepth) (fun _ _ token h => h.pushToken token)
      (fun _ _ command h => h.pushCommand command) h entry
  revert stage
  induction h with
  | start =>
    intro stage
    unfold Controller.WithinDepth
    rw [← Queue.length_toList, ← Queue.length_toList, hrest.tokens, hrest.commands]
    exact ⟨Nat.zero_le _, Nat.zero_le _⟩
  | count _ ih => exact ih
  | turn _ hturn ih =>
    intro stage
    have hturn := Device.tickStage_turn _ ((Recorded.turn_eq_ok_iff _).mp hturn).1
    unfold Controller.WithinDepth
    rw [(hturn.frame stage).1]
    exact ⟨Nat.le_trans (hturn.queues_le stage).1 (ih stage).1, Nat.le_trans (hturn.queues_le stage).2 (ih stage).2⟩
  | pushToken _ _ _ ih => exact haccept ih _
  | pushCommand _ _ _ ih => exact haccept ih _
  | stall _ turned stalled ih =>
    exact Device.updateStage_keeps _ (fun _ controller => controller.WithinDepth) (fun _ h => h) ih
  | enable _ _ ih => exact ih
  | switch _ counting ih =>
    exact Device.switch_keeps _ (fun _ controller => controller.WithinDepth) (fun _ _ h => h) ih counting

/-- The result stage can be asked for its operations, unless it is overcrowded. -/
theorem Reached.outstanding_total {schedule : Schedule} {start recorded : Recorded} {left : Backlog}
    (hrest : start.device.Quiescent) (h : Reached schedule.program start left recorded) :
    (∃ count, (recorded.device.stages.get .result).outstanding = .ok count) ∨
      (recorded.device.stages.get .result).outstanding = .error .overflow ∧ schedule.Overcrowds start.device := by
  have hdepth := ((h.ledger schedule.program_staged hrest).stages .result).2
  have hqueue := (h.withinDepth hrest .result).1
  have hlane := (h.flow schedule.program_staged hrest).lane .result
  have hlength := hlane.length_eq.1
  rw [schedule.program_result_length] at hlength
  have htaken := (recorded.device.stages.get .result).activity.taken_le_one
  unfold Controller.outstanding Word32.add
  rw [← Activity.taken_eq]
  split
  · exact .inl ⟨_, rfl⟩
  · refine .inr ⟨rfl, ?_, ?_⟩
    · rw [← hdepth]
      omega
    · omega

/-- Nothing can be pushed on a stream: none is left, or its queue is full and all stages wait. -/
def Backlog.Blocked (left : Backlog) (device : Device) (stream : Stream) : Prop :=
  left.Exhausted stream ∨ device.full stream = true ∧ device.Waits

/-- What leaves the sequencers alone takes no move. -/
theorem Device.SameSequencers.movesLeft_eq {programs : Stage → List Operation} {device other : Device}
    (h : device.SameSequencers other) (start : Device) :
    device.movesLeft programs start = other.movesLeft programs start := by
  simp only [movesLeft, Controller.movesLeft, h _]

namespace Live

variable {schedule : Schedule} {steps : Nat} {start first recorded after : Recorded} {left next : Backlog}

theorem driven : Driven (Live schedule start) := Reached.operated.toDriven.and Device.Lasting.unhindered.driven

theorem tick_total (hrunnable : Runnable schedule steps start) (h : Live schedule start left recorded) :
    ∃ after, recorded.tick = .ok after :=
  h.1.tick_total hrunnable.rotates hrunnable.off.quiescent hrunnable.bearable

/-- A cycle makes less of what is left to be done, or all stages wait and nothing has moved. -/
theorem effort_tick (hrunnable : Runnable schedule steps start) (h : Live schedule start left recorded)
    (htick : recorded.tick = .ok after) :
    effort schedule start.device left after.device < effort schedule start.device left recorded.device ∨
      recorded.device.Still after.device ∧ after.device.Waits :=
  (h.1.movesLeft_tick schedule.program_staged hrunnable.off.quiescent h.2 htick).imp_left fun hless =>
    Nat.add_lt_add_right hless _

theorem effort_tick_le (hrunnable : Runnable schedule steps start) (h : Live schedule start left recorded)
    (htick : recorded.tick = .ok after) :
    effort schedule start.device left after.device ≤ effort schedule start.device left recorded.device := by
  rcases h.effort_tick hrunnable htick with hless | ⟨hstill, _⟩
  · exact Nat.le_of_lt hless
  · exact Nat.le_of_eq (congrArg (· + _) hstill.movesLeft)

/-- A push makes less of what is left to be done. -/
theorem effort_push (hrunnable : Runnable schedule steps start) (h : Live schedule start left recorded) {entry : Entry}
    (hcount : next.tokenCount + next.commandCount < left.tokenCount + left.commandCount)
    (hpush : Transport.push entry recorded = .ok after) :
    effort schedule start.device next after.device < effort schedule start.device left recorded.device := by
  obtain ⟨ticked, hticked, rfl⟩ := Recorded.push_eq_ok_iff.mp hpush
  have hle := h.effort_tick_le hrunnable hticked
  unfold effort at hle ⊢
  rw [(ticked.device.accept_sequencers entry).movesLeft_eq]
  omega

theorem effort_pushToken (hrunnable : Runnable schedule steps start) (h : Live schedule start left recorded)
    {stage : Stage} {token : Token} {rest : List Token} {entry : Entry}
    (hnext : left.tokens.get stage = token :: rest) (hpush : Transport.push entry recorded = .ok after) :
    effort schedule start.device (left.withTokens rest stage) after.device < effort schedule start.device left recorded.device := by
  have hcount := Backlog.tokenCount_withTokens hnext
  exact h.effort_push hrunnable (Nat.add_lt_add_right (by omega) left.commandCount) hpush

theorem effort_pushCommand (hrunnable : Runnable schedule steps start) (h : Live schedule start left recorded)
    {stage : Stage} {command : Command} {rest : List Command} {entry : Entry}
    (hnext : left.commands.get stage = command :: rest) (hpush : Transport.push entry recorded = .ok after) :
    effort schedule start.device (left.withCommands rest stage) after.device < effort schedule start.device left recorded.device := by
  have hcount := Backlog.commandCount_withCommands hnext
  exact h.effort_push hrunnable (Nat.add_lt_add_left (by omega) left.tokenCount) hpush

/-- What is left to be done stays less than a number. -/
theorem driven_less (hrunnable : Runnable schedule steps start) (bound : Nat) :
    Driven fun left recorded => Live schedule start left recorded ∧ effort schedule start.device left recorded.device < bound where
  tick h htick := ⟨driven.tick h.1 htick, Nat.lt_of_le_of_lt (h.1.effort_tick_le hrunnable htick) h.2⟩
  pushToken h hnext hroom hpush :=
    ⟨driven.pushToken h.1 hnext hroom hpush, Nat.lt_trans (h.1.effort_pushToken hrunnable hnext hpush) h.2⟩
  pushCommand h hnext hroom hpush :=
    ⟨driven.pushCommand h.1 hnext hroom hpush, Nat.lt_trans (h.1.effort_pushCommand hrunnable hnext hpush) h.2⟩

/-- When all stages wait although nothing can be pushed, nothing is left anywhere. -/
theorem drained_of_waits (hrunnable : Runnable schedule steps start) (h : Live schedule start left recorded)
    (hwaits : recorded.device.Waits) (hfull : ∀ stream, left.Exhausted stream ∨ recorded.device.full stream = true)
    (stage : Stage) :
    ((recorded.device.stages.get stage).activity = .idle ∧ (recorded.device.stages.get stage).tokens.toList = []) ∧
      left.tokens.get stage = [] ∧ left.commands.get stage = [] := by
  have hflow := h.1.flow schedule.program_staged hrunnable.off.quiescent
  have hdepth (stage : Stage) : 0 < (recorded.device.stages.get stage).depth := by
    rw [((h.1.ledger schedule.program_staged hrunnable.off.quiescent).stages stage).2]
    exact hrunnable.depth stage
  obtain ⟨hthrough, hidle⟩ :=
    hflow.through_of_waits hrunnable.rotates hrunnable.steps_pos hdepth hwaits hfull stage
  have hlane := hflow.lane stage
  rw [hthrough] at hlane
  have htokens := hlane.tokens_eq
  have hcommands := hlane.commands_eq
  rw [hidle, Activity.taken, Nat.add_zero, List.drop_length, List.map_nil, List.append_eq_nil_iff] at htokens hcommands
  exact ⟨⟨hidle, htokens.1⟩, htokens.2, hcommands.2⟩

/-- When nothing can be pushed, all is pushed. -/
theorem empty_of_blocked (hrunnable : Runnable schedule steps start) (h : Live schedule start left recorded)
    (hblocked : ∀ stream, left.Blocked recorded.device stream) : left.Empty := by
  by_cases hwaits : recorded.device.Waits
  · exact fun stage => (h.drained_of_waits hrunnable hwaits (fun stream => (hblocked stream).imp_right And.left) stage).2
  · have hexhausted (stream : Stream) : left.Exhausted stream :=
      (hblocked stream).resolve_right fun hstuck => hwaits hstuck.2
    exact fun stage => ⟨hexhausted (.token stage), hexhausted (.command stage)⟩

/-- When all is pushed and all stages wait, no stage has anything left. -/
theorem outstanding_of_waits (hrunnable : Runnable schedule steps start) (h : Live schedule start left recorded)
    (hempty : left.Empty) (hwaits : recorded.device.Waits) (stage : Stage) :
    (recorded.device.stages.get stage).outstanding = .ok 0 := by
  have hfull (stream : Stream) : left.Exhausted stream ∨ recorded.device.full stream = true := by
    cases stream with
    | token stage => exact .inl (hempty stage).1
    | command stage => exact .inl (hempty stage).2
  obtain ⟨⟨hidle, htokens⟩, _⟩ := h.drained_of_waits hrunnable hwaits hfull stage
  rw [Controller.outstanding, hidle, ← Queue.length_toList, htokens]
  rfl

end Live

/-- Since an earlier state, something was done, or nothing was pushed and nothing has moved. -/
structure Since (schedule : Schedule) (start : Recorded) (left : Backlog) (recorded : Recorded) (next : Backlog)
    (after : Recorded) : Prop where
  live : Live schedule start next after
  moved : effort schedule start.device next after.device < effort schedule start.device left recorded.device ∨
    next = left ∧ recorded.device.Still after.device

namespace Since

variable {schedule : Schedule} {steps : Nat} {start recorded current after : Recorded} {left next : Backlog}
  {feed fed : Feed}

theorem effort_le (h : Since schedule start left recorded next after) :
    effort schedule start.device next after.device ≤ effort schedule start.device left recorded.device := by
  rcases h.moved with hless | ⟨rfl, hstill⟩
  · exact Nat.le_of_lt hless
  · exact Nat.le_of_eq (congrArg (· + _) hstill.movesLeft)

theorem tick (hrunnable : Runnable schedule steps start) (h : Since schedule start left recorded next current)
    (htick : current.tick = .ok after) :
    Since schedule start left recorded next after ∧
      (effort schedule start.device next after.device < effort schedule start.device left recorded.device ∨
        recorded.device.Still after.device ∧ after.device.Waits) := by
  have hlive := Live.driven.tick h.live htick
  rcases h.live.effort_tick hrunnable htick with hless | ⟨hstill, hwaits⟩
  · have := Nat.lt_of_lt_of_le hless h.effort_le
    exact ⟨⟨hlive, .inl this⟩, .inl this⟩
  rcases h.moved with hless | ⟨hsame, hbefore⟩
  · have := Nat.lt_of_le_of_lt (h.live.effort_tick_le hrunnable htick) hless
    exact ⟨⟨hlive, .inl this⟩, .inl this⟩
  · exact ⟨⟨hlive, .inr ⟨hsame, hbefore.trans hstill⟩⟩, .inr ⟨hbefore.trans hstill, hwaits⟩⟩

theorem driven (hrunnable : Runnable schedule steps start) : Driven (Since schedule start left recorded) where
  tick h htick := (h.tick hrunnable htick).1
  pushToken h hnext hroom hpush :=
    ⟨Live.driven.pushToken h.live hnext hroom hpush,
      .inl (Nat.lt_of_lt_of_le (h.live.effort_pushToken hrunnable hnext hpush) h.effort_le)⟩
  pushCommand h hnext hroom hpush :=
    ⟨Live.driven.pushCommand h.live hnext hroom hpush,
      .inl (Nat.lt_of_lt_of_le (h.live.effort_pushCommand hrunnable hnext hpush) h.effort_le)⟩

/-- A visit of a stream gets something done, or it finds that nothing can be pushed there. -/
theorem visitStream (hrunnable : Runnable schedule steps start) {stream : Stream}
    (h : Since schedule start left recorded feed.backlog current)
    (hvisit : feed.visitStream stream current = .ok (fed, after)) :
    Since schedule start left recorded fed.backlog after ∧
      (effort schedule start.device fed.backlog after.device < effort schedule start.device left recorded.device ∨
        left.Blocked recorded.device stream) := by
  obtain ⟨hsince, hend⟩ := (driven hrunnable).visitStream h hvisit
  refine ⟨hsince, ?_⟩
  rcases hsince.moved with hless | ⟨hsame, _⟩
  · exact .inl hless
  rcases hend with hexhausted | ⟨before, hbefore, hpoll⟩
  · exact .inr (.inl (hsame ▸ hexhausted))
  obtain ⟨hticked, hfull⟩ := Recorded.poll_eq_ok_iff.mp hpoll
  refine (hbefore.tick hrunnable hticked).2.imp_right fun ⟨hstill, hwaits⟩ => .inr ⟨?_, fun stage => ?_⟩
  · rw [← hstill.full, hfull]
  · exact (hstill.waits_iff stage).mp (hwaits stage)

theorem visitStreams (hrunnable : Runnable schedule steps start) {streams : List Stream}
    (h : Since schedule start left recorded feed.backlog current)
    (hvisit : Feed.visitStreams streams feed current = .ok (fed, after)) :
    Since schedule start left recorded fed.backlog after ∧
      (effort schedule start.device fed.backlog after.device < effort schedule start.device left recorded.device ∨
        ∀ stream ∈ streams, left.Blocked recorded.device stream) := by
  induction streams generalizing feed current with
  | nil =>
    cases hvisit
    exact ⟨h, .inr nofun⟩
  | cons stream rest ih =>
    simp only [Feed.visitStreams, bind_eq_ok_iff, Prod.exists] at hvisit
    obtain ⟨next, visited, hfirst, hrest⟩ := hvisit
    obtain ⟨hsince, hend⟩ := h.visitStream hrunnable hfirst
    obtain ⟨hlast, hlater⟩ := ih hsince hrest
    refine ⟨hlast, ?_⟩
    rcases hend with hless | hblocked
    -- what was done in this visit is not undone by the later ones
    · exact .inl ((Live.driven_less hrunnable _).visitStreams ⟨hsince.live, hless⟩ hrest).2
    · exact hlater.imp_right fun hothers => List.forall_mem_cons.mpr ⟨hblocked, hothers⟩

end Since

namespace Live

variable {schedule : Schedule} {steps : Nat} {start recorded after : Recorded} {left : Backlog} {feed fed : Feed}

/-- A pass over the streams gets something done while something is left to push. -/
theorem effort_fill (hrunnable : Runnable schedule steps start) (h : Live schedule start feed.backlog recorded)
    (hleft : feed.allPushed = false) (hfill : feed.fill recorded = .ok (fed, after)) :
    effort schedule start.device fed.backlog after.device < effort schedule start.device feed.backlog recorded.device := by
  simp only [Feed.fill, bind_eq_ok_iff, pure_eq_ok_iff, Prod.exists, Prod.mk.injEq] at hfill
  obtain ⟨next, visited, hvisit, rfl, rfl⟩ := hfill
  have hsince : Since schedule start feed.backlog recorded feed.backlog recorded := ⟨h, .inr ⟨rfl, .refl _⟩⟩
  rcases (hsince.visitStreams hrunnable hvisit).2 with hless | hblocked
  · exact hless
  · have hempty := h.empty_of_blocked hrunnable fun stream => hblocked stream (Stream.mem_all stream)
    rw [(Feed.allPushed_iff feed).mpr hempty] at hleft
    cases hleft

variable {options : Options} {surroundings : Surroundings}

/-- A run that nobody gives up feeds until all is pushed, within as many passes as there is something to be done. -/
theorem feedAll_done (hrunnable : Runnable schedule steps start)
    (hoptions : ∀ reading phase, options.stop? reading phase = none) {patience asked : Nat}
    (h : Live schedule start feed.backlog recorded)
    (hpatience : effort schedule start.device feed.backlog recorded.device ≤ patience) :
    ∃ askedAfter fed after,
      Session.feedAll options surroundings patience asked feed recorded = .ok (.done, askedAfter, fed, after) ∧
        Live schedule start fed.backlog after ∧ fed.backlog.Empty ∧
        effort schedule start.device fed.backlog after.device ≤
          effort schedule start.device feed.backlog recorded.device := by
  have hpass {feed : Feed} {recorded : Recorded} (h : Live schedule start feed.backlog recorded)
      (hleft : feed.allPushed = false) : ∃ fed filled, feed.fill recorded = .ok (fed, filled) ∧
        Live schedule start fed.backlog filled ∧ effort schedule start.device fed.backlog filled.device <
          effort schedule start.device feed.backlog recorded.device := by
    obtain ⟨⟨fed, filled⟩, hfill⟩ := driven.fill_total (fun h => h.tick_total hrunnable) h
    exact ⟨fed, filled, hfill, driven.fill h hfill, h.effort_fill hrunnable hleft hfill⟩
  induction patience generalizing asked feed recorded with
  | zero =>
    cases hall : feed.allPushed with
    | true =>
      exact ⟨asked, feed, recorded, Session.feedAll_allPushed hall, h, (Feed.allPushed_iff feed).mp hall, Nat.le_refl _⟩
    | false =>
      obtain ⟨_, _, _, _, hless⟩ := hpass h hall
      omega
  | succ patience ih =>
    cases hall : feed.allPushed with
    | true =>
      exact ⟨asked, feed, recorded, Session.feedAll_allPushed hall, h, (Feed.allPushed_iff feed).mp hall, Nat.le_refl _⟩
    | false =>
      -- each pass takes from what is left to be done, which is all that the patience has to cover
      obtain ⟨next, filled, hfill, hnext, hless⟩ := hpass h hall
      obtain ⟨askedAfter, fed, after, hfeed, hlive, hempty, hle⟩ := @ih _ _ (asked + 1) hnext (by omega)
      refine ⟨askedAfter, fed, after, ?_, hlive, hempty, by omega⟩
      rw [Session.feedAll, if_neg (by rw [hall]; exact Bool.false_ne_true), hoptions]
      exact bind_eq_ok_iff.mpr ⟨_, hfill, hfeed⟩

/-- A run that nobody gives up waits until the result stage has nothing left, unless that stage is overcrowded. -/
theorem awaitResult_done (hrunnable : Runnable schedule steps start)
    (hoptions : ∀ reading phase, options.stop? reading phase = none) {patience asked : Nat}
    (h : Live schedule start left recorded) (hempty : left.Empty)
    (hpatience : effort schedule start.device left recorded.device < patience) :
    (∃ after, Session.awaitResult options surroundings patience asked recorded = .ok (.done, after) ∧
        Live schedule start left after) ∨
      Session.awaitResult options surroundings patience asked recorded = .error .overflow ∧
        schedule.Overcrowds start.device := by
  induction patience generalizing asked recorded with
  | zero => cases hpatience
  | succ patience ih =>
    obtain ⟨polled, hpolled⟩ := h.tick_total hrunnable
    have hlive := driven.tick h hpolled
    rcases hlive.1.outstanding_total hrunnable.off.quiescent with ⟨count, hcount⟩ | ⟨hcount, hcrowd⟩
    · have hpoll := Recorded.outstanding_eq_ok_iff.mpr ⟨hpolled, hcount⟩
      rw [Session.awaitResult, hpoll]
      cases count with
      | zero => exact .inl ⟨polled, rfl, hlive⟩
      | succ count =>
        -- something is left, so not all stages wait, and the cycle of the poll got something done
        rcases h.effort_tick hrunnable hpolled with hless | ⟨_, hwaits⟩
        · have hrest := @ih _ (asked + 1) hlive (by omega)
          simpa [hoptions, bind, Except.bind] using hrest
        · rw [hlive.outstanding_of_waits hrunnable hempty hwaits] at hcount
          cases hcount
    · refine .inr ⟨?_, hcrowd⟩
      rw [Session.awaitResult, Recorded.outstanding_eq_error hpolled hcount]
      rfl

end Live

end BitSerial
