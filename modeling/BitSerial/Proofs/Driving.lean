import BitSerial.Proofs.Feeding
import BitSerial.Proofs.Reach

/-! # Runs reach only what devices can reach

The loops of a run feed a schedule and read registers, so each state of a run is among those that a device can reach
while the schedule is streamed through it. For the whole run this is said at the points where its loops end: there
it is also known what ended them.
-/

namespace BitSerial

/-- What a feed has still to push. -/
def Feed.backlog (feed : Feed) : Backlog := ⟨feed.tokens, feed.commands⟩

/-- A feed begins with all of the three programs. -/
theorem Feed.ofSchedule_backlog (schedule : Schedule) :
    (Feed.ofSchedule schedule).backlog = .ofPrograms schedule.program := by
  simp [Feed.backlog, Feed.ofSchedule, Backlog.ofPrograms, PerStage.of, Schedule.program, Instruction.map,
    Function.comp_def]

/-- Nothing is left to push. -/
def Backlog.Empty (left : Backlog) : Prop := ∀ stage, left.tokens.get stage = [] ∧ left.commands.get stage = []

theorem Feed.allPushed_iff (feed : Feed) : feed.allPushed = true ↔ feed.backlog.Empty := by
  simp only [Feed.allPushed, Stream.all, List.all_cons, List.all_nil, Bool.and_true, Bool.and_eq_true, Feed.exhausted,
    List.isEmpty_iff]
  constructor
  · rintro ⟨h₁, h₂, h₃, h₄, h₅, h₆⟩ (_ | _ | _)
    exacts [⟨h₁, h₂⟩, ⟨h₃, h₄⟩, ⟨h₅, h₆⟩]
  · intro h
    exact ⟨(h .fetch).1, (h .fetch).2, (h .execute).1, (h .execute).2, (h .result).1, (h .result).2⟩

/-- Whether nothing is left to push on a stream. -/
def Backlog.Exhausted (left : Backlog) : Stream → Prop
  | .token stage => left.tokens.get stage = []
  | .command stage => left.commands.get stage = []

/-- What holds of a device and of what is left to push, whatever a host does that feeds: it lets cycles pass and pushes
what comes next when it has seen that the queue has room. -/
structure Driven (keeps : Backlog → Recorded → Prop) : Prop where
  tick : ∀ {left recorded after}, keeps left recorded → recorded.tick = .ok after → keeps left after
  pushToken : ∀ {left recorded after stage token rest}, keeps left recorded →
    left.tokens.get stage = token :: rest → recorded.device.full (.token stage) = false →
    Transport.push (.token stage token) recorded = .ok after → keeps (left.withTokens rest stage) after
  pushCommand : ∀ {left recorded after stage command rest}, keeps left recorded →
    left.commands.get stage = command :: rest → recorded.device.full (.command stage) = false →
    Transport.push (.command command) recorded = .ok after → keeps (left.withCommands rest stage) after

/-- What polls and pushes of one stream keep, a visit of that stream keeps. It ends when nothing is left, or with a poll
that says that the queue is full. -/
theorem Feed.visit_keeps {α : Type} {stream : Stream} {entry : α → Entry} (keeps : List α → Recorded → Prop)
    (htick : ∀ {list recorded after}, keeps list recorded → recorded.tick = .ok after → keeps list after)
    (hpush : ∀ {first rest recorded after}, keeps (first :: rest) recorded → recorded.device.full stream = false →
      Transport.push (entry first) recorded = .ok after → keeps rest after)
    {list rest : List α} {pushed : Nat} {recorded after : Recorded} (h : keeps list recorded)
    (hvisit : Feed.visit stream entry list recorded = .ok (rest, pushed, after)) :
    keeps rest after ∧ (rest = [] ∨ ∃ before, keeps rest before ∧ Transport.poll stream before = .ok (true, after)) := by
  refine Feed.visit_preserves keeps (fun h hpolled => htick h (Recorded.poll_eq_ok_iff.mp hpolled).1)
    (fun h hpolled hpushed => ?_) h hvisit
  -- the poll said that there is room, and no cycle between it and the push takes that away
  obtain ⟨hticked, hroom⟩ := Recorded.poll_eq_ok_iff.mp hpolled
  exact hpush (htick h hticked) hroom hpushed

/-- A visit comes through if cycles do. -/
theorem Feed.visit_total {α : Type} {stream : Stream} {entry : α → Entry} (keeps : List α → Recorded → Prop)
    (htotal : ∀ {list recorded}, keeps list recorded → ∃ after, recorded.tick = .ok after)
    (htick : ∀ {list recorded after}, keeps list recorded → recorded.tick = .ok after → keeps list after)
    (hpush : ∀ {first rest recorded after}, keeps (first :: rest) recorded → recorded.device.full stream = false →
      Transport.push (entry first) recorded = .ok after → keeps rest after)
    {list : List α} {recorded : Recorded} (h : keeps list recorded) :
    ∃ found, Feed.visit stream entry list recorded = .ok found := by
  induction list generalizing recorded with
  | nil => exact ⟨_, rfl⟩
  | cons first others ih =>
    obtain ⟨polled, hpolled⟩ := htotal h
    refine bind_total ⟨_, Recorded.poll_eq_ok_iff.mpr ⟨hpolled, rfl⟩⟩ fun answer hanswer => ?_
    obtain ⟨hticked, hfull⟩ := Recorded.poll_eq_ok_iff.mp hanswer
    have hkeeps := htick h hticked
    dsimp only
    split
    next => exact ⟨_, rfl⟩
    next hroom =>
      obtain ⟨ticked, hpush'⟩ := htotal hkeeps
      refine bind_total ⟨_, Recorded.push_eq_ok_iff.mpr ⟨ticked, hpush', rfl⟩⟩ fun pushed hpushed => ?_
      refine bind_total (ih (hpush hkeeps (hfull.trans (Bool.not_eq_true _ ▸ hroom)) hpushed)) fun _ _ => ⟨_, rfl⟩

namespace Driven

variable {keeps : Backlog → Recorded → Prop} {feed fed : Feed} {left : Backlog} {recorded after : Recorded}

theorem pushFirstToken (hdriven : Driven keeps) {stage : Stage} {token : Token} {rest : List Token}
    (h : keeps (left.withTokens (token :: rest) stage) recorded) (hroom : recorded.device.full (.token stage) = false)
    (hpush : Transport.push (.token stage token) recorded = .ok after) : keeps (left.withTokens rest stage) after := by
  have hnext : (left.withTokens (token :: rest) stage).tokens.get stage = token :: rest := by
    simp [Backlog.withTokens]
  simpa [Backlog.withTokens] using hdriven.pushToken h hnext hroom hpush

theorem pushFirstCommand (hdriven : Driven keeps) {stage : Stage} {command : Command} {rest : List Command}
    (h : keeps (left.withCommands (command :: rest) stage) recorded)
    (hroom : recorded.device.full (.command stage) = false)
    (hpush : Transport.push (.command command) recorded = .ok after) : keeps (left.withCommands rest stage) after := by
  have hnext : (left.withCommands (command :: rest) stage).commands.get stage = command :: rest := by
    simp [Backlog.withCommands]
  simpa [Backlog.withCommands] using hdriven.pushCommand h hnext hroom hpush

theorem visitStream (hdriven : Driven keeps) {stream : Stream} (h : keeps feed.backlog recorded)
    (hvisit : feed.visitStream stream recorded = .ok (fed, after)) :
    keeps fed.backlog after ∧ (fed.backlog.Exhausted stream ∨
      ∃ before, keeps fed.backlog before ∧ Transport.poll stream before = .ok (true, after)) := by
  cases stream with
  | token stage =>
    simp only [Feed.visitStream, bind_eq_ok_iff, pure_eq_ok_iff, Prod.exists, Prod.mk.injEq] at hvisit
    obtain ⟨rest, pushed, last, hvisit, rfl, rfl⟩ := hvisit
    rw [← feed.backlog.withTokens_self stage] at h
    have hkept := Feed.visit_keeps (fun list recorded => keeps (feed.backlog.withTokens list stage) recorded)
      (fun h => hdriven.tick h) (fun h => hdriven.pushFirstToken h) h hvisit
    refine ⟨hkept.1, hkept.2.imp_left fun hnil => ?_⟩
    change (feed.tokens.set rest stage).get stage = []
    rw [PerStage.get_set_self, hnil]
  | command stage =>
    simp only [Feed.visitStream, bind_eq_ok_iff, pure_eq_ok_iff, Prod.exists, Prod.mk.injEq] at hvisit
    obtain ⟨rest, pushed, last, hvisit, rfl, rfl⟩ := hvisit
    rw [← feed.backlog.withCommands_self stage] at h
    have hkept := Feed.visit_keeps (fun list recorded => keeps (feed.backlog.withCommands list stage) recorded)
      (fun h => hdriven.tick h) (fun h => hdriven.pushFirstCommand h) h hvisit
    refine ⟨hkept.1, hkept.2.imp_left fun hnil => ?_⟩
    change (feed.commands.set rest stage).get stage = []
    rw [PerStage.get_set_self, hnil]

theorem visitStreams (hdriven : Driven keeps) {streams : List Stream} (h : keeps feed.backlog recorded)
    (hvisit : Feed.visitStreams streams feed recorded = .ok (fed, after)) : keeps fed.backlog after := by
  induction streams generalizing feed recorded with
  | nil =>
    cases hvisit
    exact h
  | cons stream rest ih =>
    simp only [Feed.visitStreams, bind_eq_ok_iff, Prod.exists] at hvisit
    obtain ⟨next, visited, hfirst, hrest⟩ := hvisit
    exact ih (hdriven.visitStream h hfirst).1 hrest

/-- A pass over the streams keeps what feeding keeps. -/
theorem fill (hdriven : Driven keeps) (h : keeps feed.backlog recorded)
    (hfill : feed.fill recorded = .ok (fed, after)) : keeps fed.backlog after := by
  simp only [Feed.fill, bind_eq_ok_iff, pure_eq_ok_iff, Prod.exists, Prod.mk.injEq] at hfill
  obtain ⟨next, visited, hvisit, rfl, rfl⟩ := hfill
  exact (hdriven.visitStreams h hvisit : keeps next.backlog after)

/-- A pass over the streams comes through if cycles do. -/
theorem fill_total (hdriven : Driven keeps)
    (htotal : ∀ {left recorded}, keeps left recorded → ∃ after, recorded.tick = .ok after)
    (h : keeps feed.backlog recorded) : ∃ found, feed.fill recorded = .ok found := by
  have hstream {feed : Feed} {recorded : Recorded} (stream : Stream) (h : keeps feed.backlog recorded) :
      ∃ found, feed.visitStream stream recorded = .ok found := by
    cases stream with
    | token stage =>
      rw [← feed.backlog.withTokens_self stage] at h
      exact bind_total (Feed.visit_total (fun list recorded => keeps (feed.backlog.withTokens list stage) recorded)
        htotal (fun h => hdriven.tick h) (fun h => hdriven.pushFirstToken h) h) fun _ _ => ⟨_, rfl⟩
    | command stage =>
      rw [← feed.backlog.withCommands_self stage] at h
      exact bind_total (Feed.visit_total (fun list recorded => keeps (feed.backlog.withCommands list stage) recorded)
        htotal (fun h => hdriven.tick h) (fun h => hdriven.pushFirstCommand h) h) fun _ _ => ⟨_, rfl⟩
  have hstreams {streams : List Stream} {feed : Feed} {recorded : Recorded} (h : keeps feed.backlog recorded) :
      ∃ found, Feed.visitStreams streams feed recorded = .ok found := by
    induction streams generalizing feed recorded with
    | nil => exact ⟨_, rfl⟩
    | cons stream rest ih =>
      exact bind_total (hstream stream h) fun _ hvisit => ih (hdriven.visitStream h hvisit).1
  exact bind_total (hstreams h) fun _ _ => ⟨_, rfl⟩

variable {options : Options} {surroundings : Surroundings}

/-- Feeding is done only when nothing is left. -/
theorem feedAll (hdriven : Driven keeps) {patience asked askedAfter : Nat} {ended : Session.LoopEnd}
    (h : keeps feed.backlog recorded)
    (hfeed : Session.feedAll options surroundings patience asked feed recorded = .ok (ended, askedAfter, fed, after)) :
    keeps fed.backlog after ∧ (ended = .done → fed.backlog.Empty) := by
  induction patience generalizing asked feed recorded with
  | zero =>
    cases hfeed
    refine ⟨h, fun hdone => ?_⟩
    rw [← Feed.allPushed_iff]
    by_contra hleft
    rw [if_neg hleft] at hdone
    cases hdone
  | succ patience ih =>
    unfold Session.feedAll at hfeed
    split at hfeed
    next hall =>
      cases hfeed
      exact ⟨h, fun _ => (Feed.allPushed_iff _).mp hall⟩
    next =>
      split at hfeed
      next =>
        cases hfeed
        exact ⟨h, nofun⟩
      next =>
        simp only [bind_eq_ok_iff, Prod.exists] at hfeed
        obtain ⟨next, filled, hfill, hrest⟩ := hfeed
        exact ih (hdriven.fill h hfill) hrest

/-- Waiting is done only when the result stage has nothing left. -/
theorem awaitResult (hdriven : Driven keeps) {patience asked : Nat} {ended : Session.LoopEnd} (h : keeps left recorded)
    (hwait : Session.awaitResult options surroundings patience asked recorded = .ok (ended, after)) :
    keeps left after ∧ (ended = .done → (after.device.stages.get .result).outstanding = .ok 0) := by
  induction patience generalizing asked recorded with
  | zero =>
    cases hwait
    exact ⟨h, nofun⟩
  | succ patience ih =>
    simp only [Session.awaitResult, bind_eq_ok_iff, Prod.exists] at hwait
    obtain ⟨count, polled, hpoll, hwait⟩ := hwait
    obtain ⟨hticked, hcount⟩ := Recorded.outstanding_eq_ok_iff.mp hpoll
    have hkept := hdriven.tick h hticked
    split at hwait
    next hzero =>
      cases hwait
      exact ⟨hkept, fun _ => hzero ▸ hcount⟩
    next =>
      split at hwait
      next =>
        cases hwait
        exact ⟨hkept, nofun⟩
      next => exact ih hkept hwait

/-- The work of a run is done only when all is pushed and the result stage has nothing left. -/
theorem work (hdriven : Driven keeps) {patience : Nat} {ended : Session.LoopEnd} (h : keeps feed.backlog recorded)
    (hwork : Session.work options surroundings patience feed recorded = .ok (ended, after)) :
    ∃ left, keeps left after ∧
      (ended = .done → left.Empty ∧ (after.device.stages.get .result).outstanding = .ok 0) := by
  simp only [Session.work, bind_eq_ok_iff, Prod.exists] at hwork
  obtain ⟨fed, asked, next, last, hfeed, hwork⟩ := hwork
  obtain ⟨hkept, hempty⟩ := hdriven.feedAll h hfeed
  split at hwork
  next =>
    obtain ⟨hawaited, hzero⟩ := hdriven.awaitResult hkept hwork
    exact ⟨_, hawaited, fun hdone => ⟨hempty rfl, hzero hdone⟩⟩
  next hnot =>
    cases hwork
    exact ⟨_, hkept, fun hdone => absurd hdone (hnot ·)⟩

end Driven

/-- What cycles and pushed entries keep of a device. -/
structure Device.Lasting (keeps : Device → Prop) : Prop where
  count : ∀ {device}, keeps device → keeps device.countTick
  turn : ∀ {device after} {stage : Stage}, keeps device → device.Turn stage after → keeps after
  accept : ∀ {device} {entry : Entry}, keeps device → keeps (device.accept entry)

theorem Device.Lasting.tick {keeps : Device → Prop} (hlasting : Lasting keeps) {recorded after : Recorded}
    (h : keeps recorded.device) (htick : recorded.tick = .ok after) : keeps after.device :=
  Recorded.tick_keeps keeps (fun _ h => hlasting.count h) (fun _ _ _ h hturn => hlasting.turn h hturn) h htick

/-- What lasts is kept by feeding. -/
theorem Device.Lasting.driven {keeps : Device → Prop} (hlasting : Lasting keeps) :
    Driven fun _ recorded => keeps recorded.device := by
  have hpush {recorded after : Recorded} {entry : Entry} (h : keeps recorded.device)
      (hpush : Transport.push entry recorded = .ok after) : keeps after.device := by
    obtain ⟨ticked, hticked, rfl⟩ := Recorded.push_eq_ok_iff.mp hpush
    exact hlasting.accept (hlasting.tick h hticked)
  exact ⟨hlasting.tick, fun h _ _ => hpush h, fun h _ _ => hpush h⟩

theorem Driven.and {keeps others : Backlog → Recorded → Prop} (hdriven : Driven keeps) (hothers : Driven others) :
    Driven fun left recorded => keeps left recorded ∧ others left recorded where
  tick h htick := ⟨hdriven.tick h.1 htick, hothers.tick h.2 htick⟩
  pushToken h hnext hroom hpush := ⟨hdriven.pushToken h.1 hnext hroom hpush, hothers.pushToken h.2 hnext hroom hpush⟩
  pushCommand h hnext hroom hpush :=
    ⟨hdriven.pushCommand h.1 hnext hroom hpush, hothers.pushCommand h.2 hnext hroom hpush⟩

namespace Recorded

variable {recorded after : Recorded}

/-- Turning everything off on a device at rest leaves it at rest. -/
theorem halt_off (h : recorded.device.Quiescent) (hhalt : Session.halt recorded = .ok after) : after.device.Off := by
  simp only [Session.halt, bind_eq_ok_iff] at hhalt
  obtain ⟨disabled, hdisable, hcount⟩ := hhalt
  obtain ⟨first, hfirst, rfl⟩ := setEnabled_eq_ok_iff.mp hdisable
  obtain ⟨second, hsecond, rfl⟩ := setCounting_eq_ok_iff.mp hcount
  have hrest := tick_keeps Device.Quiescent (fun _ h => h.countTick) (fun _ _ _ h hturn => hturn.quiescent h) h hfirst
  have hdisabled : ({ first.device with enabled := .all false } : Device).Quiescent ∧
      ({ first.device with enabled := .all false } : Device).enabled = .all false :=
    ⟨hrest.of_eq rfl rfl, rfl⟩
  obtain ⟨hrest, henabled⟩ : second.device.Quiescent ∧ second.device.enabled = .all false := by
    refine tick_keeps (fun device => device.Quiescent ∧ device.enabled = .all false) ?_ ?_ hdisabled hsecond
    · exact fun _ h => ⟨h.1.countTick, h.2⟩
    · exact fun _ _ _ h hturn => ⟨hturn.quiescent h.1, hturn.switches.1.trans h.2⟩
  exact ⟨hrest.of_eq rfl rfl, henabled, rfl⟩

/-- Reading the counters is a number of cycles. -/
theorem readCounters_keeps (keeps : Recorded → Prop) {counters : Counters}
    (htick : ∀ recorded after, keeps recorded → recorded.tick = .ok after → keeps after) (h : keeps recorded)
    (hread : Session.readCounters recorded = .ok (counters, after)) : keeps after := by
  have hstage {recorded after : Recorded} {stage : Stage} {cycles : StateCycles} (h : keeps recorded)
      (hread : Session.readStage recorded stage = .ok (cycles, after)) : keeps after := by
    simp only [Session.readStage, bind_eq_ok_iff, pure_eq_ok_iff, Prod.exists, Prod.mk.injEq,
      stateCycles_eq_ok_iff] at hread
    obtain ⟨_, first, ⟨hfirst, _⟩, _, second, ⟨hsecond, _⟩, _, third, ⟨hthird, _⟩, _, last, ⟨hlast, _⟩, _, rfl⟩ := hread
    exact htick _ _ (htick _ _ (htick _ _ (htick _ _ h hfirst) hsecond) hthird) hlast
  simp only [Session.readCounters, bind_eq_ok_iff, pure_eq_ok_iff, Prod.exists, Prod.mk.injEq,
    cycleCount_eq_ok_iff] at hread
  obtain ⟨_, fetch, hfetch, _, execute, hexecute, _, result, hresult, _, last, ⟨hlast, _⟩, _, rfl⟩ := hread
  exact htick _ _ (hstage (hstage (hstage h hfetch) hexecute) hresult) hlast

/-- The counters can be read if cycles come through. -/
theorem readCounters_total (keeps : Recorded → Prop)
    (htotal : ∀ {recorded}, keeps recorded → ∃ after, recorded.tick = .ok after)
    (htick : ∀ {recorded after}, keeps recorded → recorded.tick = .ok after → keeps after) (h : keeps recorded) :
    ∃ counters after, Session.readCounters recorded = .ok (counters, after) := by
  have hstage {recorded : Recorded} (stage : Stage) (h : keeps recorded) :
      ∃ cycles after, Session.readStage recorded stage = .ok (cycles, after) ∧ keeps after := by
    obtain ⟨first, hfirst⟩ := htotal h
    obtain ⟨second, hsecond⟩ := htotal (htick h hfirst)
    obtain ⟨third, hthird⟩ := htotal (htick (htick h hfirst) hsecond)
    have hkept := htick (htick (htick h hfirst) hsecond) hthird
    obtain ⟨last, hlast⟩ := htotal hkept
    let read (after : Recorded) (state : ControlState) := (after.device.stages.get stage).cycles.get state
    refine ⟨⟨read first .command, read second .run, read third .send, read last .receive⟩, last, ?_,
      htick hkept hlast⟩
    simp only [Session.readStage, bind_eq_ok_iff, pure_eq_ok_iff, Prod.exists, Prod.mk.injEq, stateCycles_eq_ok_iff]
    exact ⟨_, first, ⟨hfirst, rfl⟩, _, second, ⟨hsecond, rfl⟩, _, third, ⟨hthird, rfl⟩, _, last, ⟨hlast, rfl⟩, rfl, rfl⟩
  obtain ⟨fetchCycles, fetch, hfetch, hfetched⟩ := hstage .fetch h
  obtain ⟨executeCycles, execute, hexecute, hexecuted⟩ := hstage .execute hfetched
  obtain ⟨resultCycles, result, hresult, hwritten⟩ := hstage .result hexecuted
  obtain ⟨last, hlast⟩ := htotal hwritten
  refine ⟨⟨last.device.cycles, fetchCycles, executeCycles, resultCycles⟩, last, ?_⟩
  simp only [Session.readCounters, bind_eq_ok_iff, pure_eq_ok_iff, Prod.exists, Prod.mk.injEq, cycleCount_eq_ok_iff]
  exact ⟨_, fetch, hfetch, _, execute, hexecute, _, result, hresult, _, last, ⟨hlast, rfl⟩, rfl, rfl⟩

end Recorded

/-- What holds whatever a run does: it feeds, and it turns stages and counting on and off. -/
structure Operated (keeps : Backlog → Recorded → Prop) : Prop extends Driven keeps where
  enable : ∀ {left recorded after enabled}, keeps left recorded →
    Accelerator.setEnabled enabled recorded = .ok after → keeps left after
  switch : ∀ {left recorded after counting}, keeps left recorded →
    Accelerator.setCounting counting recorded = .ok after → keeps left after

namespace Operated

theorem and {keeps also : Backlog → Recorded → Prop} (hoperated : Operated keeps) (halso : Operated also) :
    Operated fun left recorded => keeps left recorded ∧ also left recorded where
  toDriven := hoperated.toDriven.and halso.toDriven
  enable h hwrite := ⟨hoperated.enable h.1 hwrite, halso.enable h.2 hwrite⟩
  switch h hwrite := ⟨hoperated.switch h.1 hwrite, halso.switch h.2 hwrite⟩

variable {keeps : Backlog → Recorded → Prop} {schedule : Schedule} {feed : Feed} {left : Backlog}
  {recorded after : Recorded}

theorem start (hoperated : Operated keeps) (h : keeps (.ofPrograms schedule.program) recorded)
    (hstart : Session.start schedule recorded = .ok (feed, after)) : keeps feed.backlog after := by
  simp only [Session.start, bind_eq_ok_iff, pure_eq_ok_iff, Prod.exists, Prod.mk.injEq] at hstart
  obtain ⟨disabled, hdisable, next, filled, hfill, counting, hcount, enabled, henable, rfl, rfl⟩ := hstart
  rw [← Feed.ofSchedule_backlog] at h
  exact hoperated.enable (hoperated.switch (hoperated.fill (hoperated.enable h hdisable) hfill) hcount) henable

theorem halt (hoperated : Operated keeps) (h : keeps left recorded) (hhalt : Session.halt recorded = .ok after) :
    keeps left after := by
  simp only [Session.halt, bind_eq_ok_iff] at hhalt
  obtain ⟨disabled, hdisable, hcount⟩ := hhalt
  exact hoperated.switch (hoperated.enable h hdisable) hcount

/-- A run can begin if cycles come through. -/
theorem start_total (hoperated : Operated keeps)
    (htotal : ∀ {left recorded}, keeps left recorded → ∃ after, recorded.tick = .ok after)
    (h : keeps (.ofPrograms schedule.program) recorded) :
    ∃ feed after, Session.start schedule recorded = .ok (feed, after) := by
  rw [← Feed.ofSchedule_backlog] at h
  obtain ⟨disabled, hdisable⟩ := Recorded.setEnabled_total (htotal h) (.all false)
  have hdisabled := hoperated.enable h hdisable
  obtain ⟨⟨feed, filled⟩, hfill⟩ := hoperated.fill_total htotal hdisabled
  have hfilled := hoperated.fill hdisabled hfill
  obtain ⟨counting, hcount⟩ := Recorded.setCounting_total (htotal hfilled) true
  have hcounting := hoperated.switch hfilled hcount
  obtain ⟨after, henable⟩ := Recorded.setEnabled_total (htotal hcounting) (.all true)
  refine ⟨feed, after, ?_⟩
  simp only [Session.start, bind_eq_ok_iff, pure_eq_ok_iff, Prod.exists, Prod.mk.injEq]
  exact ⟨disabled, hdisable, feed, filled, hfill, counting, hcount, after, henable, rfl, rfl⟩

/-- A run can turn everything off and read the counters if cycles come through. -/
theorem end_total (hoperated : Operated keeps)
    (htotal : ∀ {left recorded}, keeps left recorded → ∃ after, recorded.tick = .ok after) (h : keeps left recorded) :
    ∃ halted, Session.halt recorded = .ok halted ∧
      ∃ counters after, Session.readCounters halted = .ok (counters, after) := by
  obtain ⟨disabled, hdisable⟩ := Recorded.setEnabled_total (htotal h) (.all false)
  obtain ⟨halted, hcount⟩ := Recorded.setCounting_total (htotal (hoperated.enable h hdisable)) false
  have hhalt : Session.halt recorded = .ok halted := bind_eq_ok_iff.mpr ⟨disabled, hdisable, hcount⟩
  exact ⟨halted, hhalt, Recorded.readCounters_total (keeps left) htotal hoperated.tick (hoperated.halt h hhalt)⟩

end Operated

/-- What lasts, and does not depend on whether stages and counting are on, is kept whatever a run does. -/
theorem Device.Lasting.operated {keeps : Device → Prop} (hlasting : Lasting keeps)
    (henable : ∀ device enabled, keeps device → keeps { device with enabled })
    (hswitch : ∀ device counting, keeps device → keeps (device.switch counting)) :
    Operated fun _ recorded => keeps recorded.device where
  toDriven := hlasting.driven
  enable h hwrite := by
    obtain ⟨ticked, hticked, rfl⟩ := Recorded.setEnabled_eq_ok_iff.mp hwrite
    exact henable _ _ (hlasting.tick h hticked)
  switch h hwrite := by
    obtain ⟨ticked, hticked, rfl⟩ := Recorded.setCounting_eq_ok_iff.mp hwrite
    exact hswitch _ _ (hlasting.tick h hticked)

theorem Reached.operated {programs : Stage → List Operation} {start : Recorded} : Operated (Reached programs start) where
  tick h htick := h.tick htick
  pushToken h hnext hroom hpush := h.push_token hnext hroom hpush
  pushCommand h hnext hroom hpush := h.push_command hnext hroom hpush
  enable h hwrite := h.setEnabled hwrite
  switch h hwrite := h.setCounting hwrite

end BitSerial
