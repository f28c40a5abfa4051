import BitSerial.Proofs.Admitted
import BitSerial.Proofs.Liveness

/-! # Runs that end

Every run that nobody gives up comes to its end: on a device that was made for its array, a schedule can be written for
the next run of any session, the device does not fault, and the loops of the run end. What has to be assumed is that the
counts of what was ever done have room.
-/

namespace BitSerial

open Session (RunEnd)

/-- While the stages are off, no move is taken. -/
theorem Device.Lasting.idle (programs : Stage → List Operation) (start : Device) (left : Nat) :
    Lasting fun device => device.enabled = .all false ∧ device.movesLeft programs start = left where
  count h := h
  turn h hturn := by
    cases hturn with
    | off => exact h
    | on hon =>
      rw [h.1, PerStage.get_all] at hon
      cases hon
  accept {device entry} h :=
    ⟨by cases entry <;> exact h.1, ((device.accept_sequencers entry).movesLeft_eq start).trans h.2⟩

/-- A device whose stages are off while the beginning of a schedule is queued. -/
def Primed (schedule : Schedule) (start : Recorded) (left : Backlog) (recorded : Recorded) : Prop :=
  Reached schedule.program start left recorded ∧ (∀ stage, (recorded.device.stages.get stage).stalled = false) ∧
    (recorded.device.enabled = .all false ∧ recorded.device.movesLeft schedule.program start.device =
      start.device.movesLeft schedule.program start.device) ∧
    left.tokenCount + left.commandCount ≤ (Backlog.ofPrograms schedule.program).tokenCount +
      (Backlog.ofPrograms schedule.program).commandCount

namespace Primed

variable {schedule : Schedule} {steps : Nat} {start recorded after : Recorded} {left : Backlog}

theorem driven : Driven (Primed schedule start) :=
  Reached.operated.toDriven.and (Device.Lasting.moves.driven.and
    ((Device.Lasting.idle _ _ _).driven.and (Backlog.count_driven _)))

theorem tick_total (hrunnable : Runnable schedule steps start) (h : Primed schedule start left recorded) :
    ∃ after, recorded.tick = .ok after :=
  h.1.tick_total hrunnable.rotates hrunnable.off.quiescent hrunnable.bearable

theorem disable (h : Primed schedule start left recorded)
    (hdisable : Accelerator.setEnabled (.all false) recorded = .ok after) : Primed schedule start left after := by
  have hreached := h.1.setEnabled hdisable
  obtain ⟨ticked, hticked, rfl⟩ := Recorded.setEnabled_eq_ok_iff.mp hdisable
  obtain ⟨_, hmoves, ⟨_, hleft⟩, hcount⟩ := driven.tick h hticked
  exact ⟨hreached, hmoves, ⟨rfl, hleft⟩, hcount⟩

theorem count (h : Primed schedule start left recorded) {counting : Bool}
    (hcounting : Accelerator.setCounting counting recorded = .ok after) : Primed schedule start left after := by
  have hreached := h.1.setCounting hcounting
  obtain ⟨ticked, hticked, rfl⟩ := Recorded.setCounting_eq_ok_iff.mp hcounting
  obtain ⟨_, hmoves, ⟨hoff, hleft⟩, hcount⟩ := driven.tick h hticked
  have hleftAfter := ((ticked.device.switch_sequencers counting).movesLeft_eq start.device).trans hleft
  exact ⟨hreached, ticked.device.switch_keeps (fun _ controller => controller.stalled = false) (fun _ _ h => h) hmoves
    counting, ⟨(ticked.device.switch_frame counting).2.1.trans hoff, hleftAfter⟩, hcount⟩

/-- Turning the stages on sets everything going. -/
theorem enable (h : Primed schedule start left recorded)
    (henable : Accelerator.setEnabled (.all true) recorded = .ok after) :
    Live schedule start left after ∧ effort schedule start.device left after.device ≤
      effort schedule start.device (.ofPrograms schedule.program) start.device := by
  have hreached := h.1.setEnabled henable
  obtain ⟨ticked, hticked, rfl⟩ := Recorded.setEnabled_eq_ok_iff.mp henable
  obtain ⟨_, hmoves, ⟨_, hleft⟩, hcount⟩ := driven.tick h hticked
  exact ⟨⟨hreached, rfl, hmoves⟩, Nat.add_le_add (Nat.le_of_eq hleft) hcount⟩

end Primed

namespace Runnable

variable {schedule : Schedule} {steps : Nat} {start : Recorded}

/-- The beginning of a schedule is queued and the stages are turned on. -/
theorem start_total (hrunnable : Runnable schedule steps start) :
    ∃ feed after, Session.start schedule start = .ok (feed, after) ∧ Live schedule start feed.backlog after ∧
      effort schedule start.device feed.backlog after.device ≤
        effort schedule start.device (.ofPrograms schedule.program) start.device := by
  have hbegin : Primed schedule start (Feed.ofSchedule schedule).backlog start := by
    rw [Feed.ofSchedule_backlog]
    exact ⟨.start, hrunnable.moves, ⟨hrunnable.off.enabled, rfl⟩, Nat.le_refl _⟩
  obtain ⟨disabled, hdisable⟩ := Recorded.setEnabled_total (hbegin.tick_total hrunnable) (.all false)
  have hdisabled := hbegin.disable hdisable
  obtain ⟨⟨feed, filled⟩, hfill⟩ := Primed.driven.fill_total (fun h => h.tick_total hrunnable) hdisabled
  have hfilled := Primed.driven.fill hdisabled hfill
  obtain ⟨counting, hcount⟩ := Recorded.setCounting_total (hfilled.tick_total hrunnable) true
  have hcounting := hfilled.count hcount
  obtain ⟨after, henable⟩ := Recorded.setEnabled_total (hcounting.tick_total hrunnable) (.all true)
  refine ⟨feed, after, ?_, hcounting.enable henable⟩
  simp only [Session.start, bind_eq_ok_iff, pure_eq_ok_iff, Prod.exists, Prod.mk.injEq]
  exact ⟨disabled, hdisable, feed, filled, hfill, counting, hcount, after, henable, rfl, rfl⟩

/-- A run that nobody gives up comes to its end, unless its result stage is overcrowded. -/
theorem streamThrough_total (hrunnable : Runnable schedule steps start) {options : Options}
    {surroundings : Surroundings} (hoptions : ∀ reading phase, options.stop? reading phase = none) {patience : Nat}
    (hpatience : effort schedule start.device (.ofPrograms schedule.program) start.device < patience) :
    (∃ counters last,
        Session.streamThrough options surroundings patience schedule start = .ok (.finished counters, last)) ∨
      Session.streamThrough options surroundings patience schedule start = .error .overflow ∧
        schedule.Overcrowds start.device := by
  obtain ⟨feed, started, hstart, hlive, heffort⟩ := hrunnable.start_total
  obtain ⟨asked, fed, pushed, hfeed, hpushed, hempty, hless⟩ :=
    @Live.feedAll_done _ _ _ _ _ options surroundings hrunnable hoptions patience 0 hlive (by omega)
  -- waiting begins with no more to be done than feeding did, so the same patience covers it
  have hwork : Session.work options surroundings patience feed started =
      Session.awaitResult options surroundings patience asked pushed := by
    rw [Session.work, hfeed]
    rfl
  rcases @Live.awaitResult_done _ _ _ _ _ options surroundings hrunnable hoptions patience asked hpushed hempty
      (by omega) with ⟨worked, hdone, hworked⟩ | ⟨hcrowded, hcrowd⟩
  · obtain ⟨halted, hhalt, counters, last, hread⟩ := Reached.operated.end_total
      (fun h => h.tick_total hrunnable.rotates hrunnable.off.quiescent hrunnable.bearable) hworked.1
    refine .inl ⟨counters, last, ?_⟩
    simp only [Session.streamThrough, bind_eq_ok_iff, Prod.exists]
    refine ⟨feed, started, hstart, .done, worked, hwork.trans hdone, ?_⟩
    simp only [bind_eq_ok_iff, pure_eq_ok_iff, Prod.exists, Prod.mk.injEq]
    exact ⟨halted, hhalt, counters, last, hread, rfl, rfl⟩
  · refine .inr ⟨?_, hcrowd⟩
    rw [Session.streamThrough, hstart]
    change Session.work options surroundings patience feed started >>= _ = _
    rw [hwork, hcrowded]
    rfl

end Runnable

/-- The counts of what was ever done have room for what the next run of a session adds. -/
structure Session.HasRoom (session : Session) : Prop where
  counts : session.layout.Counts session.residency
  read : ∀ schedule residency, session.nextSchedule = .ok (schedule, residency) →
    session.device.statistics.bytesRead + schedule.traffic.fetchBytes < Word64.size
  written : ∀ schedule residency, session.nextSchedule = .ok (schedule, residency) →
    session.device.statistics.bytesWritten + schedule.traffic.writeBytes < Word64.size

namespace Watch.Sound

variable {device : Device} {watch : Watch}

/-- A schedule can always be written. -/
theorem nextSchedule_total (h : watch.Sound device) (hused : device.Used) (hroom : watch.session.HasRoom) :
    ∃ schedule residency, watch.session.nextSchedule = .ok (schedule, residency) := by
  obtain ⟨⟨schedule, residency⟩, hschedule, _⟩ := (h.nextSchedule_settles hused).total (not_not_intro hroom.counts)
  exact ⟨schedule, residency, hschedule⟩

/-- The device of a session can do the next schedule without a fault. -/
theorem bearable (h : watch.Sound device) (hroom : watch.session.HasRoom) {schedule : Schedule} {residency : Residency}
    (hschedule : watch.session.nextSchedule = .ok (schedule, residency)) :
    Bearable schedule.program watch.session.device := by
  obtain ⟨bandPairs, steps, results, hwritten⟩ := Layout.schedule_written hschedule
  constructor
  case fits => exact fun stage operation => hwritten.fits h.placed.cuts h.placed.result h.placed.result_end
  case read => exact hwritten.fetchBytes_eq ▸ hroom.read _ _ hschedule
  case written => exact hwritten.writeBytes_eq ▸ hroom.written _ _ hschedule

/-- The device of a session can be driven through the next schedule. -/
theorem runnable (h : watch.Sound device) (hused : device.Used) (hroom : watch.session.HasRoom)
    (hmoves : ∀ stage, (watch.session.device.stages.get stage).stalled = false) {schedule : Schedule}
    {residency : Residency} (hschedule : watch.session.nextSchedule = .ok (schedule, residency)) :
    Runnable schedule watch.session.layout.nest.stepCount watch.recorded := by
  obtain ⟨bandPairs, steps, results, hwritten⟩ := Layout.schedule_written hschedule
  have hcuts := h.placed.cuts
  constructor
  case rotates => exact hwritten.rotates
  case steps_pos => exact hcuts.stepCount_pos
  case off => exact h.off
  case moves => exact hmoves
  case depth =>
    intro stage
    have hdepth := (h.depth stage).trans (hused.built.1 stage)
    rw [← h.placed.array] at hdepth
    exact hdepth ▸ hcuts.array.queueEntries_pos
  case bearable => exact h.bearable hroom hschedule

end Watch.Sound

theorem Options.stop?_eq_none {options : Options} (htimeout : options.timeout = none)
    (hcancel : options.cancellable = false) (reading : Reading) (phase : RunPhase) :
    options.stop? reading phase = none := by
  simp [stop?, htimeout, hcancel]

/-- Whatever was done with a session before, its next run comes to its end if no stage is frozen and nobody gives it up:
both of its loops end after as many rounds as there is something to be done. If the result stage may hold 2^32
operations, whose count does not fit its register, the run may end in a fault instead, but it ends all the same. -/
theorem run_ends {device : Device} {watch : Watch} (hused : device.Used) (hhistory : History device watch)
    (hmoves : ∀ stage, (watch.session.device.stages.get stage).stalled = false)
    (htimeout : watch.session.options.timeout = none) (hcancel : watch.session.options.cancellable = false)
    (hroom : watch.session.HasRoom) :
    ∃ schedule residency, watch.session.nextSchedule = .ok (schedule, residency) ∧
      ∀ patience surroundings,
        effort schedule watch.session.device (.ofPrograms schedule.program) watch.session.device < patience →
        (¬ schedule.Overcrowds watch.session.device →
          ∃ report session, watch.session.run patience surroundings = .ok (.finished report, session)) ∧
        ((∃ report session, watch.session.run patience surroundings = .ok (.finished report, session)) ∨
          watch.session.run patience surroundings = .error .overflow) := by
  have hsound := hhistory.sound
  obtain ⟨schedule, residency, hschedule⟩ := hsound.nextSchedule_total hused hroom
  refine ⟨schedule, residency, hschedule, fun patience surroundings hpatience => ?_⟩
  have hrunnable := hsound.runnable hused hroom hmoves hschedule
  have hrun := watch.run_of_schedule hschedule patience surroundings
  rcases @Runnable.streamThrough_total _ _ _ hrunnable watch.session.options surroundings
      (Options.stop?_eq_none htimeout hcancel) patience hpatience with ⟨counters, last, hstream⟩ | ⟨hstream, hcrowd⟩
  · rw [hstream] at hrun
    have hends : ∃ report session, watch.session.run patience surroundings = .ok (.finished report, session) :=
      ⟨_, _, hrun⟩
    exact ⟨fun _ => hends, .inl hends⟩
  · rw [hstream] at hrun
    exact ⟨absurd hcrowd, .inr hrun⟩

/-- The first run of the small product ends within 400 rounds. -/
theorem run_ends_small :
    ∃ session, smallSession = some session ∧ ∀ patience surroundings, 400 < patience →
      ∃ report after, session.run patience surroundings = .ok (.finished report, after) := by
  have hfree : smallSession.map (fun session => (session.device.stages.map Controller.stalled, session.options)) =
      some (.all false, ⟨none, false⟩) := by
    decide +kernel
  have hcounts : smallSession.map (fun session => (session.residency.hits, session.residency.misses,
      session.device.statistics.bytesRead, session.device.statistics.bytesWritten)) = some (0, 0, 0, 0) := by
    decide +kernel
  have hplan : smallSession.bind (fun session => session.nextSchedule.toOption.map fun written =>
      (effort written.1 session.device (.ofPrograms written.1.program) session.device, written.1.traffic,
        written.1.result.length, session.layout.nest.outputCount * session.layout.nest.stepCount)) =
        some (400, ⟨2560, 256⟩, 1, 3) := by
    decide +kernel
  obtain ⟨session, hsession, hfree⟩ := Option.map_eq_some_iff.mp hfree
  rw [hsession, Option.map_some, Option.some.injEq] at hcounts
  rw [hsession, Option.bind_some] at hplan
  obtain ⟨⟨schedule, residency⟩, hschedule, hplan⟩ := Option.map_eq_some_iff.mp hplan
  simp only [Prod.mk.injEq] at hfree hcounts hplan
  obtain ⟨hstalled, hoptions⟩ := hfree
  obtain ⟨hhits, hmisses, hread, hwritten⟩ := hcounts
  obtain ⟨heffort, htraffic, hlength, hsteps⟩ := hplan
  have hnext := toOption_eq_some_iff.mp hschedule
  have hroom : session.HasRoom := by
    refine ⟨⟨?_, ?_⟩, fun found _ hfound => ?_, fun found _ hfound => ?_⟩
    · rw [hhits, hsteps]
      decide
    · rw [hmisses, hsteps]
      decide
    · obtain ⟨rfl, _⟩ := Prod.mk.inj (Except.ok.inj (hnext.symm.trans hfound))
      rw [hread, htraffic]
      decide
    · obtain ⟨rfl, _⟩ := Prod.mk.inj (Except.ok.inj (hnext.symm.trans hfound))
      rw [hwritten, htraffic]
      decide
  have hmoves (stage : Stage) : (session.device.stages.get stage).stalled = false := by
    rw [← PerStage.get_map Controller.stalled, hstalled, PerStage.get_all]
  obtain ⟨found, _, hfound, hends⟩ := @run_ends (.ofGeometry .reference) (.begin session)
    (.made .reference expectedSignature defaultClock) (.attach (smallSession_attached hsession)) hmoves
    (congrArg Options.timeout hoptions) (congrArg Options.cancellable hoptions) hroom
  obtain ⟨rfl, _⟩ := Prod.mk.inj (Except.ok.inj (hnext.symm.trans hfound))
  refine ⟨session, hsession, fun patience surroundings hpatience => ?_⟩
  refine (hends patience surroundings (heffort ▸ hpatience)).1 fun ⟨_, hcrowd⟩ => ?_
  rw [hlength] at hcrowd
  exact absurd hcrowd (by decide)

end BitSerial
