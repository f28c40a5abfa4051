import BitSerial.Proofs.Regions
import BitSerial.Proofs.Repetition
import BitSerial.Proofs.Termination

/-! # Runs that were given up

A run can be given up at any reading of clock and flag, with queues half full and tiles counted as on chip that were
never fetched. What is left of it is a device as after a reset and a tracker that knows nothing; memory keeps its
buffers, and the operands are untouched. The next run that comes through begins where the first run of a new session
would, so it follows the same schedule and takes the same time.
-/

namespace BitSerial

open Session (LoopEnd RunEnd StreamEnd)

namespace Driven

variable {keeps : Backlog → Recorded → Prop} {feed : Feed} {left : Backlog} {recorded : Recorded} {options : Options}
  {surroundings : Surroundings} {point : Nat}

/-- Feeding ends at the first reading that tells it to, or before. -/
theorem feedAll_ends (hdriven : Driven keeps)
    (htotal : ∀ {left recorded}, keeps left recorded → ∃ after, recorded.tick = .ok after)
    (hstops : options.StopsAt surroundings point) {patience asked : Nat} (hasked : asked ≤ point)
    (hpatience : point < asked + patience) (h : keeps feed.backlog recorded) :
    ∃ found, Session.feedAll options surroundings patience asked feed recorded = .ok found ∧ found.1 ≠ .exhausted := by
  induction patience generalizing asked feed recorded with
  | zero => omega
  | succ patience ih =>
    rw [Session.feedAll]
    by_cases hall : feed.allPushed = true
    · rw [if_pos hall]
      exact ⟨_, rfl, by simp⟩
    rw [if_neg hall]
    cases hstop : options.stop? (surroundings asked) .push with
    | some reason => exact ⟨_, rfl, by simp⟩
    | none =>
      -- nobody stops the run at this reading, so it is not the one
      have hlt : asked < point := by
        refine Nat.lt_of_le_of_ne hasked ?_
        rintro rfl
        exact hstops.stops _ hstop
      obtain ⟨⟨fed, filled⟩, hfill⟩ := hdriven.fill_total htotal h
      obtain ⟨found, hfound, hended⟩ := ih hlt (by omega) (hdriven.fill h hfill)
      exact ⟨found, bind_eq_ok_iff.mpr ⟨_, hfill, hfound⟩, hended⟩

/-- Waiting ends at the first reading that tells it to, or before, unless there are more results to be done than can be
said. -/
theorem awaitResult_ends (hdriven : Driven keeps) {excuse : Prop}
    (htotal : ∀ {left recorded}, keeps left recorded → ∃ after, recorded.tick = .ok after)
    (houtstanding : ∀ {left recorded}, keeps left recorded →
      (∃ count, (recorded.device.stages.get .result).outstanding = .ok count) ∨
        (recorded.device.stages.get .result).outstanding = .error .overflow ∧ excuse)
    (hstops : options.StopsAt surroundings point) {patience asked : Nat} (hasked : asked ≤ point)
    (hpatience : point < asked + patience) (h : keeps left recorded) :
    Settles .overflow excuse (Session.awaitResult options surroundings patience asked recorded)
      fun found => found.1 ≠ .exhausted := by
  induction patience generalizing asked recorded with
  | zero => omega
  | succ patience ih =>
    obtain ⟨polled, hpolled⟩ := htotal h
    have hkept := hdriven.tick h hpolled
    rw [Session.awaitResult]
    rcases houtstanding hkept with ⟨count, hcount⟩ | ⟨hcount, hcrowd⟩
    · rw [Recorded.outstanding_eq_ok_iff.mpr ⟨hpolled, hcount⟩]
      change Settles _ _ (if count = 0 then _ else _) _
      by_cases hzero : count = 0
      · rw [if_pos hzero]
        exact .ok rfl (by simp)
      rw [if_neg hzero]
      cases hstop : options.stop? (surroundings asked) .completion with
      | some reason => exact .ok rfl (by simp)
      | none =>
        have hlt : asked < point := by
          refine Nat.lt_of_le_of_ne hasked ?_
          rintro rfl
          exact hstops.stops _ hstop
        exact ih hlt (by omega) hkept
    · rw [Recorded.outstanding_eq_error hpolled hcount]
      exact .inr ⟨rfl, hcrowd⟩

end Driven

/-- A run pushes all of its schedule before anything makes it stop, and comes to ask for its results. -/
def Session.PushesAll (options : Options) (surroundings : Surroundings) (patience : Nat) (schedule : Schedule)
    (start : Recorded) : Prop :=
  ∃ feed started asked fed pushed, Session.start schedule start = .ok (feed, started) ∧
    Session.feedAll options surroundings patience 0 feed started = .ok (.done, asked, fed, pushed)

namespace Reached

variable {schedule : Schedule} {start : Recorded} {options : Options} {surroundings : Surroundings} {point : Nat}

/-- A run ends at the first reading that tells it to, or before, unless it pushes everything and its result
stage is overcrowded then. -/
theorem streamThrough_ends {steps : Nat} (hrotates : schedule.Rotates steps) (hrest : start.device.Quiescent)
    (hbearable : Bearable schedule.program start.device) (hstops : options.StopsAt surroundings point) {patience : Nat}
    (hpatience : point < patience) :
    Settles .overflow
      (schedule.Overcrowds start.device ∧ Session.PushesAll options surroundings patience schedule start)
      (Session.streamThrough options surroundings patience schedule start) fun found => found.1 ≠ .exhausted := by
  have htotal {left : Backlog} {recorded : Recorded} (h : Reached schedule.program start left recorded) :
      ∃ after, recorded.tick = .ok after :=
    h.tick_total hrotates hrest hbearable
  obtain ⟨feed, started, hstart⟩ := operated.start_total htotal (.start : Reached schedule.program start _ _)
  have hstarted := operated.start .start hstart
  obtain ⟨⟨ended, asks, fed, pushed⟩, hfeed, hended⟩ :=
    operated.feedAll_ends htotal hstops (Nat.zero_le point) (by omega : point < 0 + patience) hstarted
  have hfed := (operated.feedAll hstarted hfeed).1
  have hwork : Settles .overflow
      (schedule.Overcrowds start.device ∧ Session.PushesAll options surroundings patience schedule start)
      (Session.work options surroundings patience feed started) fun found => found.1 ≠ .exhausted := by
    rw [Session.work, hfeed]
    cases ended with
    | exhausted => exact absurd rfl hended
    | stopped reason => exact .ok rfl (by simp)
    | done =>
      obtain ⟨_, hundisturbed, _⟩ := Session.feedAll_done hfeed
      refine operated.awaitResult_ends htotal (fun h => ?_) hstops (hstops.le_of_undisturbed hundisturbed) (by omega)
        hfed
      rcases h.outstanding_total hrest with hcount | ⟨hfault, hcrowd⟩
      · exact .inl hcount
      · exact .inr ⟨hfault, hcrowd, feed, started, asks, fed, pushed, hstart, hfeed⟩
  rw [Session.streamThrough, hstart]
  change Settles _ _ (Session.work options surroundings patience feed started >>= _) _
  rcases hwork with ⟨⟨ended, worked⟩, hwork, hended⟩ | ⟨hcrowded, hcrowd⟩
  · obtain ⟨left, hworked, _⟩ := operated.work hstarted hwork
    obtain ⟨halted, hhalt, counters, read, hread⟩ := operated.end_total htotal hworked
    cases ended with
    | exhausted => exact absurd rfl hended
    | stopped reason =>
      refine .ok (bind_eq_ok_iff.mpr ⟨_, hwork, bind_eq_ok_iff.mpr ⟨halted, hhalt, rfl⟩⟩) ?_
      simp
    | done =>
      refine .ok (bind_eq_ok_iff.mpr ⟨_, hwork,
        bind_eq_ok_iff.mpr ⟨halted, hhalt, bind_eq_ok_iff.mpr ⟨_, hread, rfl⟩⟩⟩) ?_
      simp
  · rw [hcrowded]
    exact .inr ⟨rfl, hcrowd⟩

/-- Streaming cuts and releases no buffer. -/
theorem buffers {programs : Stage → List Operation} {recorded : Recorded} {left : Backlog} (hstaged : Staged programs)
    (hrest : start.device.Quiescent) (h : Reached programs start left recorded) :
    recorded.device.memory.buffers = start.device.memory.buffers := by
  have hextends : Extends [] start.device.memory.buffers recorded.device.memory.regions := by
    apply h.extends hstaged hrest ⟨start.device.memory.regions, rfl, rfl⟩ fun _ hmem => absurd hmem List.not_mem_nil
    exact fun _ operation _ => operation.command.above_zero
  obtain ⟨rest, hregions, hrest⟩ := hextends
  rw [List.nil_append] at hregions
  rw [Memory.buffers, hregions, hrest]

end Reached

/-- A run that was given up was given up at the first reading that told it to, and what was kept up to there is reset.
It was waiting if nothing was left to push. -/
theorem Operated.streamThrough_stopped {keeps : Backlog → Recorded → Prop} (hoperated : Operated keeps)
    {options : Options} {surroundings : Surroundings} {patience : Nat} {schedule : Schedule} {start last : Recorded}
    {reason : Refusal} (hbegin : keeps (.ofPrograms schedule.program) start)
    (h : Session.streamThrough options surroundings patience schedule start = .ok (.stopped reason, last)) :
    ∃ point phase left reached, options.StopsAt surroundings point ∧
      options.stop? (surroundings point) phase = some reason ∧ (phase = .completion ↔ left.Empty) ∧ keeps left reached ∧
      last = Accelerator.reset reached := by
  simp only [Session.streamThrough, bind_eq_ok_iff, Prod.exists] at h
  obtain ⟨feed, started, hstart, ended, worked, hwork, h⟩ := h
  cases ended with
  | exhausted => cases h
  | done =>
    simp only [bind_eq_ok_iff, pure_eq_ok_iff, Prod.exists, Prod.mk.injEq] at h
    obtain ⟨_, _, _, _, _, hended, _⟩ := h
    cases hended
  | stopped found =>
    simp only [bind_eq_ok_iff, pure_eq_ok_iff, Prod.mk.injEq] at h
    obtain ⟨halted, hhalt, hended, rfl⟩ := h
    cases hended
    obtain ⟨point, phase, asks, fed, pushed, ended, hfeed, hstops, hstop, hphase, hworked⟩ := Session.work_stopped hwork
    have hfed := (hoperated.feedAll (hoperated.start hbegin hstart) hfeed).1
    have hkept : keeps fed.backlog worked := by
      rcases hworked with rfl | hwaited
      · exact hfed
      · exact (hoperated.awaitResult hfed hwaited).1
    exact ⟨point, phase, fed.backlog, halted, hstops, hstop, hphase.trans (Feed.allPushed_iff fed),
      hoperated.halt hkept hhalt, rfl⟩

/-- Nothing is left exactly if no token and no command is. -/
theorem Backlog.empty_iff (left : Backlog) : left.Empty ↔ left.tokenCount = 0 ∧ left.commandCount = 0 := by
  constructor
  · exact fun h => ⟨h.tokenCount, h.commandCount⟩
  · rintro ⟨htokens, hcommands⟩ stage
    simp only [tokenCount, commandCount] at htokens hcommands
    have htoken : (left.tokens.get stage).length = 0 := by cases stage <;> omega
    have hcommand : (left.commands.get stage).length = 0 := by cases stage <;> omega
    exact ⟨List.length_eq_zero_iff.mp htoken, List.length_eq_zero_iff.mp hcommand⟩

/-- After a reset, a device is as another one that was reset, but for memory and statistics, if it kept its queues and
dropped no entry since. -/
theorem Device.Kept.reset_eq {start device : Device} (h : Kept start device)
    (hoverflows : ∀ stage, (device.stages.get stage).overflows = (start.stages.get stage).overflows) :
    device.reset = { start.reset with memory := device.memory, statistics := device.statistics } := by
  have hstages : device.reset.stages = start.reset.stages := by
    apply PerStage.ext_get
    intro stage
    simp only [Device.reset, PerStage.get_map, Controller.reset, h.depth stage, h.stalled stage, hoverflows stage]
  have hgeometry := h.geometry
  have hsignature := h.signature
  have hclock := h.clock
  unfold Device.reset at hstages ⊢
  dsimp only at hstages ⊢
  rw [hstages, hgeometry, hsignature, hclock]

/-- What a run leaves behind that was given up while it fed, or while it waited. -/
structure Watch.Abandoned (before after : Watch) (phase : RunPhase) : Prop where
  /-- A run that waits has pushed all of its schedule, and one that feeds has not. -/
  pushed : ∃ schedule residency, before.session.nextSchedule = .ok (schedule, residency) ∧
    (phase = .completion ↔
      after.session.device.statistics.tokensPushed =
          before.session.device.statistics.tokensPushed + schedule.count ∧
        after.session.device.statistics.commandsPushed =
          before.session.device.statistics.commandsPushed + schedule.count)
  runs : after.session.runs = before.session.runs
  unknown : ∀ operand slot, slot < operandSlots → after.session.residency.resident operand slot = .ok none
  /-- The device is as it would be after a reset. -/
  device : ∃ memory statistics,
    after.session.device = { before.session.device.reset with memory, statistics }
  off : after.session.device.Off
  buffers : after.session.device.memory.buffers = before.session.device.memory.buffers
  content : ∀ operand, after.session.content operand = before.session.content operand

namespace Watch

variable {device : Device} {watch after : Watch} {patience : Nat} {surroundings : Surroundings} {reason : Refusal}

/-- A run that is refused was given up at the first reading that told it to. -/
theorem Sound.run_stopped (h : watch.Sound device) (hused : device.Used)
    (hrun : watch.run patience surroundings = .ok (.refused reason, after)) :
    ∃ schedule residency last, watch.session.nextSchedule = .ok (schedule, residency) ∧
      Session.streamThrough watch.session.options surroundings patience schedule watch.recorded =
        .ok (.stopped reason, last) ∧
      after.session =
        { watch.session with device := last.device, residency := residency.invalidateAll } ∧
      after.installed = watch.installed := by
  rcases run_eq_ok_iff.mp hrun with ⟨found, hsettle, _, _⟩ |
    ⟨schedule, residency, streamEnd, last, hschedule, hstream, hend, _, hinstalled⟩
  · -- the next schedule of a session is not turned down
    rcases h.nextSchedule_settles hused with ⟨_, hschedule, _⟩ | ⟨hstopped, _⟩
    · rw [hschedule] at hsettle
      cases hsettle
    · rw [hstopped] at hsettle
      cases hsettle
  · cases streamEnd with
    | finished counters => cases (Prod.mk.inj hend).1
    | exhausted => cases (Prod.mk.inj hend).1
    | stopped found =>
      obtain ⟨hended, hsession⟩ := Prod.mk.inj hend
      cases hended
      exact ⟨schedule, residency, last, hschedule, hstream, hsession, hinstalled⟩

theorem Sound.abandoned_of_run (h : watch.Sound device) (hused : device.Used)
    (hrun : watch.run patience surroundings = .ok (.refused reason, after)) :
    ∃ point phase, watch.session.options.StopsAt surroundings point ∧
      watch.session.options.stop? (surroundings point) phase = some reason ∧ watch.Abandoned after phase := by
  obtain ⟨schedule, residency, last, hschedule, hstream, hsession, hinstalled⟩ := h.run_stopped hused hrun
  have hsound := h.run hrun nofun
  have hboth := (@Reached.operated schedule.program watch.recorded).and (Device.Kept.operated watch.session.device)
  obtain ⟨point, phase, left, reached, hstops, hstop, hphase, ⟨hreached, hkept⟩, rfl⟩ :=
    hboth.streamThrough_stopped ⟨.start, Device.Kept.refl _⟩ hstream
  have hledger := hreached.ledger schedule.program_staged h.off.quiescent
  have hdevice : after.session.device = reached.device.reset := by
    rw [hsession]
    rfl
  refine ⟨point, phase, hstops, hstop, ?_⟩
  constructor
  case pushed =>
    refine ⟨schedule, residency, hschedule, ?_⟩
    have htokens := hledger.tokensPushed
    have hcommands := hledger.commandsPushed
    rw [schedule.tokenCount_eq] at htokens
    rw [schedule.commandCount_eq] at hcommands
    rw [hphase, Backlog.empty_iff, hdevice]
    simp only [Watch.recorded, Device.reset] at htokens hcommands ⊢
    omega
  case runs => rw [hsession]
  case unknown =>
    intro operand slot hslot
    rw [hsession]
    exact (SlotPair.get_eq_ok hslot).trans (congrArg Except.ok (Residency.known_invalidateAll operand slot))
  case device =>
    exact ⟨_, _, hdevice.trans (hkept.reset_eq fun stage => (hledger.stages stage).1)⟩
  case off => exact hsound.off
  case buffers =>
    rw [hdevice]
    exact hreached.buffers schedule.program_staged h.off.quiescent
  case content =>
    intro operand
    rw [hsound.content operand, h.content operand, hinstalled]

/-- A run comes to its end before it asks at the first reading that would stop it, or it is given up there. It has one
other way out, once it has pushed everything: a result stage that is overcrowded. -/
theorem Sound.run_settles (h : watch.Sound device) (hused : device.Used) (hroom : watch.session.HasRoom) {point : Nat}
    (hstops : watch.session.options.StopsAt surroundings point) (hpatience : point < patience) :
    ∃ schedule residency, watch.session.nextSchedule = .ok (schedule, residency) ∧
      Settles .overflow (schedule.Overcrowds watch.session.device ∧
          Session.PushesAll watch.session.options surroundings patience schedule watch.recorded)
        (watch.run patience surroundings) fun found =>
        (∃ reason, found.1 = .refused reason) ∨ (∃ report, found.1 = .finished report) ∧
          ∀ others : Surroundings, (∀ index < point, others index = surroundings index) →
            watch.run patience others = .ok found := by
  obtain ⟨schedule, residency, hschedule⟩ := h.nextSchedule_total hused hroom
  obtain ⟨bandPairs, steps, results, hwritten⟩ := Layout.schedule_written hschedule
  refine ⟨schedule, residency, hschedule, ?_⟩
  have hsettle := settle_eq_ok_iff.mpr hschedule
  have hconclude {others : Surroundings} {ended : StreamEnd} {last : Recorded}
      (hstream :
        Session.streamThrough watch.session.options others patience schedule watch.recorded = .ok (ended, last)) :
      watch.run patience others =
        .ok ((({ watch.session with residency } : Session).conclude schedule ended last.device).1,
          { watch with
            session := (({ watch.session with residency } : Session).conclude schedule ended last.device).2
            trail := last.trail }) := by
    rw [Watch.run]
    exact bind_eq_ok_iff.mpr ⟨_, hsettle, bind_eq_ok_iff.mpr ⟨_, hstream, rfl⟩⟩
  have hends := @Reached.streamThrough_ends schedule watch.recorded _ _ _ _ hwritten.rotates h.off.quiescent
    (h.bearable hroom hschedule) hstops _ hpatience
  rcases hends with ⟨⟨ended, last⟩, hstream, hended⟩ | ⟨hcrowded, hcrowd⟩
  · cases ended with
    | exhausted => exact absurd rfl hended
    | stopped reason => exact .ok (hconclude hstream) (.inl ⟨reason, rfl⟩)
    | finished counters =>
      refine .ok (hconclude hstream) (.inr ⟨⟨_, rfl⟩, ?_⟩)
      intro others hothers
      exact hconclude (Session.streamThrough_done hstream hstops hothers)
  · refine .inr ⟨?_, hcrowd⟩
    rw [Watch.run, hsettle]
    change (Session.streamThrough _ _ _ _ _ >>= _) = _
    rw [hcrowded]
    rfl

/-- What a session can come to without a run that comes through. -/
inductive Unproductive (first : Watch) : Watch → Prop where
  | refl : Unproductive first first
  | run {watch after : Watch} {patience : Nat} {surroundings : Surroundings} {reason : Refusal}
      (h : Unproductive first watch) (hrun : watch.run patience surroundings = .ok (.refused reason, after)) :
      Unproductive first after
  | setOperand {watch after : Watch} {operand : Operand} {packed : Packed} {answer : Except Refusal Unit}
      (h : Unproductive first watch) (hset : watch.setOperand operand packed = .ok (answer, after)) :
      Unproductive first after
  | readResult {watch : Watch} {length : Nat} {answer : Except Refusal (List Int)} {session : Session}
      (h : Unproductive first watch) (hread : watch.session.readResult length = .ok (answer, session)) :
      Unproductive first { watch with session }
  | reset {watch : Watch} (h : Unproductive first watch) : Unproductive first watch.reset
  | stall {watch : Watch} (h : Unproductive first watch) (stage : Stage) (stalled : Bool) :
      Unproductive first
        { watch with session := { watch.session with device := watch.session.device.stall stage stalled } }
  | configure {watch : Watch} (h : Unproductive first watch) (options : Options) :
      Unproductive first { watch with session := { watch.session with options } }

namespace Unproductive

variable {first last : Watch}

theorem history (h : first.Unproductive last) (hfirst : History device first) : History device last := by
  induction h with
  | refl => exact hfirst
  | run _ hrun ih => exact .run ih hrun nofun
  | setOperand _ hset ih => exact .setOperand ih hset
  | readResult _ hread ih => exact .readResult ih hread
  | reset _ ih => exact .reset ih
  | stall _ stage stalled ih => exact .stall ih stage stalled
  | configure _ options ih => exact .configure ih options

theorem product (h : first.Unproductive last) : last.session.SameProduct first.session := by
  induction h with
  | refl => exact .refl _
  | run _ hrun ih => exact (Session.SameProduct.run hrun).trans ih
  | setOperand _ hset ih => exact (Session.SameProduct.setOperand hset).trans ih
  | readResult _ hread ih => exact (Session.SameProduct.readResult hread).trans ih
  | reset _ ih => exact ⟨ih.geometry, ih.clock, ih.gemm, ih.plan, ih.buffers⟩
  | stall _ _ _ ih => exact ⟨ih.geometry, ih.clock, ih.gemm, ih.plan, ih.buffers⟩
  | configure _ _ ih => exact ⟨ih.geometry, ih.clock, ih.gemm, ih.plan, ih.buffers⟩

/-- Without a run that comes through, a session that knows nothing to be on chip does not learn of anything. -/
theorem unknown (h : first.Unproductive last) (hfirst : History device first) (hused : device.Used)
    (hunknown : first.session.residency.tiles = .both (.both none)) :
    last.session.residency.tiles = .both (.both none) := by
  induction h with
  | refl => exact hunknown
  | run h hrun ih =>
    obtain ⟨_, _, _, _, _, hsession, _⟩ := (h.history hfirst).sound.run_stopped hused hrun
    rw [hsession]
    rfl
  | @setOperand watch _ operand _ _ _ hset ih =>
    rcases Watch.setOperand_eq_ok hset with rfl | ⟨_, memory, _, rfl⟩
    · exact ih
    · change watch.session.residency.tiles.set (.both none) operand = _
      rw [ih]
      cases operand <;> rfl
  | readResult _ hread ih =>
    obtain ⟨_, rfl⟩ := Session.readResult_frame hread
    exact ih
  | reset _ ih => rfl
  | stall _ _ _ ih => exact ih
  | configure _ _ ih => exact ih

end Unproductive

end Watch

/-- A new session for the product of another one, on the same array and with its buffers at the same addresses, before
any of its runs came through. -/
inductive Watch.Renewed (watch : Watch) : Watch → Prop where
  | attach {device : Device} {options : Options} {session : Session} {prepared : Watch} (hused : device.Used)
      (hattach : Session.attach device watch.session.gemm options = .ok (.attached session))
      (hgeometry : session.geometry = watch.session.geometry) (hclock : session.clock = watch.session.clock)
      (haddresses : session.buffers.addresses = watch.session.buffers.addresses)
      (hprepared : (Watch.begin session).Unproductive prepared) : Renewed watch prepared

/-- The queues of a session are as deep as its array says. -/
theorem Watch.Sound.queues {device : Device} {watch : Watch} (h : watch.Sound device) (hused : device.Used)
    (stage : Stage) : (watch.session.device.stages.get stage).depth = watch.session.geometry.queueEntries := by
  rw [h.depth, hused.built.1, h.placed.array]

/-- A session that knows nothing begins its next run as a new one begins its first. -/
theorem Watch.Renewed.alike {device : Device} {watch later prepared : Watch} (h : watch.Renewed prepared)
    (hused : device.Used) (hhistory : History device watch) (hlater : History device later)
    (hunknown : later.session.residency.tiles = .both (.both none))
    (hproduct : later.session.SameProduct watch.session)
    (hstalled : ∀ stage, (later.session.device.stages.get stage).stalled =
      (prepared.session.device.stages.get stage).stalled) : later.Alike prepared := by
  cases h with
  | @attach other options session _ hother hattach hgeometry hclock haddresses hprepared =>
    have hbegin : History other (Watch.begin session) := .attach hattach
    have hprepare := hprepared.history hbegin
    obtain ⟨hgemm, hresidency⟩ : session.gemm = watch.session.gemm ∧ session.residency = .fresh := by
      cases Session.attach_attaches hattach with
      | attached => exact ⟨rfl, rfl⟩
    have hplan : session.plan = watch.session.plan := by
      have hplanned : Session.planFor session.geometry session.gemm = .ok session.plan := hbegin.sound.placed.plan
      rw [hgeometry, hgemm] at hplanned
      exact Except.ok.inj (hplanned.symm.trans hhistory.sound.placed.plan)
    have hsame : session.layout = watch.session.layout := by
      unfold Session.layout
      rw [hgeometry, hgemm, hplan, haddresses]
    have hkept := hprepared.product
    have hgeometries : later.session.geometry = prepared.session.geometry :=
      hproduct.geometry.trans (hgeometry.symm.trans hkept.geometry.symm)
    constructor
    case layout => exact hproduct.layout.trans (hsame.symm.trans hkept.layout.symm)
    case clock => exact hproduct.clock.trans (hclock.symm.trans hkept.clock.symm)
    case tiles => exact hunknown.trans (hprepared.unknown hbegin hother (congrArg Residency.tiles hresidency)).symm
    case device =>
      refine hlater.sound.off.alike hprepare.sound.off ?_ (fun stage => ?_) hstalled
      · rw [hlater.geometry, hprepare.geometry, hgeometries]
      · rw [hlater.sound.queues hused, hprepare.sound.queues hother, hgeometries]

/-- Wherever a run is given up, it leaves a device as after a reset, with nothing known to be on chip, nothing counted
as run and the buffers as they were. The next run that comes through follows the same schedule and reports the same as
the first run of a new session with the same buffers, if the same stages are frozen. -/
theorem abandoned_run_recovers {device : Device} {watch : Watch} (hused : device.Used)
    (hhistory : History device watch) :
    (watch.session.HasRoom → ∀ patience surroundings point, watch.session.options.StopsAt surroundings point →
      point < patience → ∃ schedule residency, watch.session.nextSchedule = .ok (schedule, residency) ∧
        Settles .overflow (schedule.Overcrowds watch.session.device ∧
            Session.PushesAll watch.session.options surroundings patience schedule watch.recorded)
          (watch.run patience surroundings) fun found =>
          (∃ reason, found.1 = .refused reason) ∨ (∃ report, found.1 = .finished report) ∧
            ∀ others : Surroundings, (∀ index < point, others index = surroundings index) →
              watch.run patience others = .ok found) ∧
    ∀ patience surroundings reason after, watch.run patience surroundings = .ok (.refused reason, after) →
      (∃ point phase, watch.session.options.StopsAt surroundings point ∧
        watch.session.options.stop? (surroundings point) phase = some reason ∧ watch.Abandoned after phase) ∧
      ∀ later prepared, after.Unproductive later → watch.Renewed prepared →
        (∀ stage, (later.session.device.stages.get stage).stalled =
          (prepared.session.device.stages.get stage).stalled) →
        (∀ written first, later.session.nextSchedule = .ok written → prepared.session.nextSchedule = .ok first →
          written.1 = first.1) ∧
        ∀ nextPatience nextSurroundings report last firstPatience firstSurroundings firstReport firstLast,
          later.run nextPatience nextSurroundings = .ok (.finished report, last) →
          prepared.run firstPatience firstSurroundings = .ok (.finished firstReport, firstLast) →
            report = firstReport := by
  have hsound := hhistory.sound
  constructor
  · intro hroom patience surroundings point hstops hpatience
    exact hsound.run_settles hused hroom hstops hpatience
  intro patience surroundings reason after hrun
  refine ⟨hsound.abandoned_of_run hused hrun, ?_⟩
  intro later prepared hlater hrenewed hstalled
  have hafter : History device after := .run hhistory hrun nofun
  obtain ⟨_, residency, _, _, _, hsession, _⟩ := hsound.run_stopped hused hrun
  have hunknown : after.session.residency.tiles = .both (.both none) := by
    rw [hsession]
    rfl
  have halike := hrenewed.alike hused hhistory (hlater.history hafter) (hlater.unknown hafter hused hunknown)
    (hlater.product.trans (Session.SameProduct.run hrun)) hstalled
  constructor
  · rintro ⟨schedule, residency⟩ ⟨first, firstResidency⟩ hnext hfirst
    unfold Session.nextSchedule at hnext hfirst
    rw [← halike.layout] at hfirst
    exact (Layout.schedule_unique halike.tiles hnext hfirst).1
  · intro nextPatience nextSurroundings report last firstPatience firstSurroundings firstReport firstLast hnext hfirst
    exact halike.report_eq hnext hfirst

/-- The reason why a run was refused. -/
def Session.RunEnd.refusal? : RunEnd → Option Refusal
  | .finished _ => none
  | .refused reason => some reason
  | .unfinished => none

theorem Session.RunEnd.eq_refused {ended : RunEnd} {reason : Refusal} (h : ended.refusal? = some reason) :
    ended = .refused reason := by
  cases ended with
  | finished report => cases h
  | refused found => rw [Option.some.inj h]
  | unfinished => cases h

/-- The flag is raised at a reading, and stays raised. -/
def Surroundings.cancelledFrom (point : Nat) : Surroundings := fun index => ⟨0, decide (point ≤ index)⟩

/-- A session that has just begun and heeds the flag. -/
def Watch.heeding (session : Session) : Watch :=
  { Watch.begin session with session := { session with options := ⟨none, true⟩ } }

/-- The small product is given up while it waits, at the hundredth reading. The run after that reports what the first
run of a new session does. -/
theorem abandoned_run_recovers_small :
    ∃ session after last first report, smallSession = some session ∧
      (Watch.heeding session).run 1000 (.cancelledFrom 99) = .ok (.refused (.cancelled .completion), after) ∧
      (∃ phase, (Watch.heeding session).Abandoned after phase) ∧
      after.run 1000 (.still false) = .ok (.finished report, last) ∧
      (Watch.begin session).run 1000 (.still false) = .ok (.finished report, first) := by
  have hruns : (smallSession.bind fun session =>
      ((Watch.heeding session).run 1000 (.cancelledFrom 99)).toOption.bind fun abandoned =>
        (abandoned.2.run 1000 (.still false)).toOption.bind fun next =>
          ((Watch.begin session).run 1000 (.still false)).toOption.bind fun first =>
            next.1.report?.bind fun _ => first.1.report?.bind fun _ =>
              abandoned.1.refusal?.map fun reason =>
                (reason, abandoned.2.session.device.stages.map Controller.stalled,
                  session.device.stages.map Controller.stalled)) =
      some (.cancelled .completion, .all false, .all false) := by
    decide +kernel
  obtain ⟨session, hsession, hruns⟩ := Option.bind_eq_some_iff.mp hruns
  obtain ⟨⟨ended, after⟩, hrun, hruns⟩ := Option.bind_eq_some_iff.mp hruns
  obtain ⟨⟨nextEnded, last⟩, hnext, hruns⟩ := Option.bind_eq_some_iff.mp hruns
  obtain ⟨⟨firstEnded, first⟩, hfirst, hruns⟩ := Option.bind_eq_some_iff.mp hruns
  obtain ⟨report, hreport, hruns⟩ := Option.bind_eq_some_iff.mp hruns
  obtain ⟨firstReport, hfirstReport, hruns⟩ := Option.bind_eq_some_iff.mp hruns
  obtain ⟨reason, hreason, hruns⟩ := Option.map_eq_some_iff.mp hruns
  simp only [Prod.mk.injEq] at hruns
  obtain ⟨rfl, hafterStalled, hstalled⟩ := hruns
  have hrun := toOption_eq_some_iff.mp hrun
  have hnext := toOption_eq_some_iff.mp hnext
  have hfirst := toOption_eq_some_iff.mp hfirst
  obtain rfl : ended = _ := Session.RunEnd.eq_refused hreason
  obtain rfl : nextEnded = _ := Session.RunEnd.eq_finished hreport
  obtain rfl : firstEnded = _ := Session.RunEnd.eq_finished hfirstReport
  have hattach := smallSession_attached hsession
  have hused := Device.Used.made .reference expectedSignature defaultClock
  have hheeding : History (.ofGeometry .reference) (Watch.heeding session) := .configure (.attach hattach) ⟨none, true⟩
  have hrenewed : (Watch.heeding session).Renewed (.begin session) := by
    have hgemm : session.gemm = smallGemm := by
      cases Session.attach_attaches hattach with
      | attached => rfl
    rw [← hgemm] at hattach
    exact @Watch.Renewed.attach (Watch.heeding session) _ _ session _ hused hattach rfl rfl rfl .refl
  have hmoves (stage : Stage) : (after.session.device.stages.get stage).stalled =
      ((Watch.begin session).session.device.stages.get stage).stalled := by
    change _ = (session.device.stages.get stage).stalled
    rw [← PerStage.get_map Controller.stalled, ← PerStage.get_map Controller.stalled, hafterStalled, hstalled]
  obtain ⟨⟨_, phase, _, _, habandoned⟩, hrecovers⟩ := (abandoned_run_recovers hused hheeding).2 _ _ _ _ hrun
  obtain ⟨_, hreports⟩ := hrecovers after _ .refl hrenewed hmoves
  obtain rfl := hreports _ _ _ _ _ _ _ _ hnext hfirst
  exact ⟨session, after, last, first, report, hsession, hrun, ⟨phase, habandoned⟩, hnext, hfirst⟩

end BitSerial
