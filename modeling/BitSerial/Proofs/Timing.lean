import BitSerial.Proofs.Streaming

/-! # What takes the same time

How long a device takes for a schedule depends on its geometry, on which of its stages are frozen, and on nothing that
was done with it before. Two devices that stand alike in this respect stay alike under the same accesses. How often
clock and flag are asked does not matter either: a run that comes to its end makes the same accesses as any other one
that does, so both read the same counters.
-/

namespace BitSerial

namespace Controller

/-- Two stages that a cycle moves in the same way. Their counters are compared if they are counted. -/
structure Alike (counts : Bool) (controller other : Controller) : Prop where
  depth : controller.depth = other.depth
  tokens : controller.tokens = other.tokens
  commands : controller.commands = other.commands
  activity : controller.activity = other.activity
  stalled : controller.stalled = other.stalled
  cycles : counts = true → controller.cycles = other.cycles

namespace Alike

variable {counts : Bool} {controller other : Controller}

theorem counted (h : Alike counts controller other) (counting : Bool) :
    (controller.counted counting).Alike counts (other.counted counting) := by
  constructor
  case cycles =>
    intro hcounts
    unfold Controller.counted
    split
    · exact congrArg₂ StateCycles.count (h.cycles hcounts) (congrArg Activity.state h.activity)
    · exact h.cycles hcounts
  all_goals simp only [counted_depth, counted_tokens, counted_commands, counted_activity, counted_stalled]
  case depth => exact h.depth
  case tokens => exact h.tokens
  case commands => exact h.commands
  case activity => exact h.activity
  case stalled => exact h.stalled

variable {handoff : Handoff} {duration : Operation → Except Fault Nat} {found otherFound : Advance}

theorem advance (h : Alike counts controller other) (hfound : controller.advance handoff duration = .ok found)
    (hother : other.advance handoff duration = .ok otherFound) :
    found.finished = otherFound.finished ∧ found.handoff = otherFound.handoff ∧
      found.controller.Alike counts otherFound.controller := by
  obtain ⟨hdepth, htokens, hcommands, hactivity, hstalled, hcycles⟩ := h
  unfold Controller.advance at hfound hother
  rw [← htokens, ← hcommands, ← hactivity] at hother
  have hstands : controller.Alike counts other := ⟨hdepth, htokens, hcommands, hactivity, hstalled, hcycles⟩
  cases hcase : controller.activity with
  | idle =>
    cases htoken : controller.tokens.head? with
    | none =>
      simp only [hcase, htoken] at hfound hother
      cases hfound
      cases hother
      exact ⟨rfl, rfl, hstands⟩
    | some token =>
      cases hcommand : controller.commands.head? with
      | none =>
        simp only [hcase, htoken, hcommand] at hfound hother
        cases hfound
        cases hother
        exact ⟨rfl, rfl, hstands⟩
      | some command =>
        simp only [hcase, htoken, hcommand] at hfound hother
        cases hfound
        cases hother
        exact ⟨rfl, rfl, hdepth, rfl, rfl, rfl, hstalled, hcycles⟩
  | receiving operation =>
    cases hacquire : handoff.acquire? operation.command with
    | none =>
      simp only [hcase, hacquire] at hfound hother
      cases hfound
      cases hother
      exact ⟨rfl, rfl, hstands⟩
    | some acquired =>
      simp only [hcase, hacquire] at hfound hother
      obtain ⟨cycles, hduration, hfound⟩ := bind_eq_ok_iff.mp hfound
      rw [hduration] at hother
      cases hfound
      cases hother
      exact ⟨rfl, rfl, hdepth, rfl, rfl, rfl, hstalled, hcycles⟩
  | running operation left =>
    simp only [hcase] at hfound hother
    split at hfound
    next hleft =>
      rw [if_pos hleft] at hother
      cases hfound
      cases hother
      exact ⟨rfl, rfl, hdepth, rfl, rfl, rfl, hstalled, hcycles⟩
    next hleft =>
      rw [if_neg hleft] at hother
      cases hfound
      cases hother
      exact ⟨rfl, rfl, hdepth, rfl, rfl, rfl, hstalled, hcycles⟩
  | sending operation =>
    simp only [hcase] at hfound hother
    obtain ⟨after, hrelease, hfound⟩ := bind_eq_ok_iff.mp hfound
    rw [hrelease] at hother
    cases hfound
    cases hother
    exact ⟨rfl, rfl, hdepth, rfl, rfl, rfl, hstalled, hcycles⟩

theorem tick (h : Alike counts controller other) {counting : Bool}
    (hfound : controller.tick handoff counting duration = .ok found)
    (hother : other.tick handoff counting duration = .ok otherFound) :
    found.finished = otherFound.finished ∧ found.handoff = otherFound.handoff ∧
      found.controller.Alike counts otherFound.controller := by
  have hcounted := h.counted counting
  change (if (controller.counted counting).stalled then _ else (controller.counted counting).advance _ _) = _ at hfound
  change (if (other.counted counting).stalled then _ else (other.counted counting).advance _ _) = _ at hother
  rw [← hcounted.stalled] at hother
  split at hfound
  next hstalled =>
    rw [if_pos hstalled] at hother
    cases hfound
    cases hother
    exact ⟨rfl, rfl, hcounted⟩
  next hstalled =>
    rw [if_neg hstalled] at hother
    exact hcounted.advance hfound hother

theorem tokensFull (h : Alike counts controller other) : controller.tokensFull = other.tokensFull := by
  unfold Controller.tokensFull
  rw [h.depth, h.tokens]

theorem commandsFull (h : Alike counts controller other) : controller.commandsFull = other.commandsFull := by
  unfold Controller.commandsFull
  rw [h.depth, h.commands]

theorem outstanding (h : Alike counts controller other) : controller.outstanding = other.outstanding := by
  unfold Controller.outstanding
  rw [h.tokens, h.activity]

theorem pushToken (h : Alike counts controller other) (token : Token) :
    (controller.pushToken token).Alike counts (other.pushToken token) := by
  unfold Controller.pushToken
  rw [← h.tokensFull]
  split
  · exact ⟨h.depth, h.tokens, h.commands, h.activity, h.stalled, h.cycles⟩
  · exact ⟨h.depth, congrArg (·.push token) h.tokens, h.commands, h.activity, h.stalled, h.cycles⟩

theorem pushCommand (h : Alike counts controller other) (command : Command) :
    (controller.pushCommand command).Alike counts (other.pushCommand command) := by
  unfold Controller.pushCommand
  rw [← h.commandsFull]
  split
  · exact ⟨h.depth, h.tokens, h.commands, h.activity, h.stalled, h.cycles⟩
  · exact ⟨h.depth, h.tokens, congrArg (·.push command) h.commands, h.activity, h.stalled, h.cycles⟩

theorem trans {last : Controller} (h : Alike counts controller other) (hother : Alike counts other last) :
    Alike counts controller last :=
  ⟨h.depth.trans hother.depth, h.tokens.trans hother.tokens, h.commands.trans hother.commands,
    h.activity.trans hother.activity, h.stalled.trans hother.stalled,
    fun hcounts => (h.cycles hcounts).trans (hother.cycles hcounts)⟩

theorem clearCycles (h : Alike counts controller other) : controller.clearCycles.Alike true other.clearCycles :=
  ⟨h.depth, h.tokens, h.commands, h.activity, h.stalled, fun _ => rfl⟩

end Alike

end Controller

namespace Device

/-- Two devices that the same accesses move in the same way. Their counters are compared once counting was turned on. -/
structure Alike (counts : Bool) (device other : Device) : Prop where
  geometry : device.geometry = other.geometry
  enabled : device.enabled = other.enabled
  handoff : device.handoff = other.handoff
  counting : device.counting = other.counting
  stage : ∀ stage, (device.stages.get stage).Alike counts (other.stages.get stage)
  cycles : counts = true → device.cycles = other.cycles
  uncounted : counts = false → device.counting = false

/-- Nothing but geometry and frozen stages tells two devices at rest apart. -/
theorem Off.alike {device other : Device} (h : device.Off) (hother : other.Off)
    (hgeometry : device.geometry = other.geometry)
    (hdepth : ∀ stage, (device.stages.get stage).depth = (other.stages.get stage).depth)
    (hstalled : ∀ stage, (device.stages.get stage).stalled = (other.stages.get stage).stalled) :
    device.Alike false other := by
  constructor
  case geometry => exact hgeometry
  case enabled => exact h.enabled.trans hother.enabled.symm
  case handoff => exact h.quiescent.handoff.trans hother.quiescent.handoff.symm
  case counting => exact h.counting.trans hother.counting.symm
  case stage =>
    intro stage
    have hempty {α : Type} {queue queueOther : Queue α} (hqueue : queue.toList = [])
        (hqueueOther : queueOther.toList = []) : queue = queueOther :=
      ((Queue.eq_empty_iff queue).mpr hqueue).trans ((Queue.eq_empty_iff queueOther).mpr hqueueOther).symm
    exact ⟨hdepth stage, hempty (h.quiescent.tokens stage) (hother.quiescent.tokens stage),
      hempty (h.quiescent.commands stage) (hother.quiescent.commands stage),
      (h.quiescent.activity stage).trans (hother.quiescent.activity stage).symm, hstalled stage, nofun⟩
  case cycles => exact nofun
  case uncounted => exact fun _ => h.counting

namespace Alike

variable {counts : Bool} {device other after otherAfter : Device}

theorem trans {last : Device} (h : Alike counts device other) (hother : Alike counts other last) :
    Alike counts device last :=
  ⟨h.geometry.trans hother.geometry, h.enabled.trans hother.enabled, h.handoff.trans hother.handoff,
    h.counting.trans hother.counting, fun stage => (h.stage stage).trans (hother.stage stage),
    fun hcounts => (h.cycles hcounts).trans (hother.cycles hcounts), h.uncounted⟩

/-- Memory and statistics do not matter. -/
theorem of_frame (h : Alike counts device other)
    (hafter : after = { device with memory := after.memory, statistics := after.statistics })
    (hother : otherAfter = { other with memory := otherAfter.memory, statistics := otherAfter.statistics }) :
    after.Alike counts otherAfter := by
  rw [hafter, hother]
  exact ⟨h.geometry, h.enabled, h.handoff, h.counting, h.stage, h.cycles, h.uncounted⟩

theorem updateStage (h : Alike counts device other) {stage : Stage} {f : Controller → Controller}
    (hf : ∀ {controller found : Controller}, controller.Alike counts found → (f controller).Alike counts (f found)) :
    (device.updateStage stage f).Alike counts (other.updateStage stage f) := by
  refine ⟨h.geometry, h.enabled, h.handoff, h.counting, fun at_ => ?_, h.cycles, h.uncounted⟩
  simp only [Device.updateStage, PerStage.get_set]
  split
  · exact hf (h.stage stage)
  · exact h.stage at_

theorem countTick (h : Alike counts device other) : device.countTick.Alike counts other.countTick := by
  refine ⟨h.geometry, h.enabled, h.handoff, h.counting, h.stage, fun hcounts => ?_, h.uncounted⟩
  simp only [Device.countTick, h.counting, h.cycles hcounts]

theorem tickStage (h : Alike counts device other) {stage : Stage} (hafter : device.tickStage stage = .ok after)
    (hother : other.tickStage stage = .ok otherAfter) : after.Alike counts otherAfter := by
  unfold Device.tickStage at hafter hother
  split at hafter
  next hon =>
    rw [if_pos (h.enabled ▸ hon)] at hother
    obtain ⟨found, hfound, hafter⟩ := bind_eq_ok_iff.mp hafter
    obtain ⟨otherFound, hotherFound, hother⟩ := bind_eq_ok_iff.mp hother
    rw [← h.handoff, ← h.counting, ← duration_eq h.geometry] at hotherFound
    obtain ⟨hfinished, hhandoff, hcontroller⟩ := (h.stage stage).tick hfound hotherFound
    have hmoved : Alike counts (device.withMove stage found.controller found.handoff)
        (other.withMove stage otherFound.controller otherFound.handoff) := by
      refine ⟨h.geometry, h.enabled, hhandoff, h.counting, fun at_ => ?_, h.cycles, h.uncounted⟩
      simp only [withMove, PerStage.get_set]
      split
      · exact hcontroller
      · exact h.stage at_
    rw [← hfinished] at hother
    cases hcase : found.finished with
    | none =>
      rw [hcase] at hafter hother
      cases hafter
      cases hother
      exact hmoved
    | some operation =>
      rw [hcase] at hafter hother
      exact hmoved.of_frame (complete_frame _ hafter) (complete_frame _ hother)
  next hoff =>
    rw [if_neg (h.enabled ▸ hoff)] at hother
    cases hafter
    cases hother
    exact h

/-- Devices that are alike stay alike in a cycle. -/
theorem tick (h : Alike counts device other) (hafter : device.tick = .ok after) (hother : other.tick = .ok otherAfter) :
    after.Alike counts otherAfter := by
  obtain ⟨fetched, executed, hfetch, hexecute, hresult⟩ := device.tick_eq_ok_iff.mp hafter
  obtain ⟨otherFetched, otherExecuted, hotherFetch, hotherExecute, hotherResult⟩ := other.tick_eq_ok_iff.mp hother
  exact ((h.countTick.tickStage hfetch hotherFetch).tickStage hexecute hotherExecute).tickStage hresult hotherResult

theorem full (h : Alike counts device other) (stream : Stream) : device.full stream = other.full stream := by
  cases stream with
  | token stage => exact (h.stage stage).tokensFull
  | command stage => exact (h.stage stage).commandsFull

theorem accept (h : Alike counts device other) (entry : Entry) :
    (device.accept entry).Alike counts (other.accept entry) := by
  cases entry with
  | token stage token =>
    exact (h.updateStage fun hstage => hstage.pushToken token).of_frame rfl rfl
  | command command =>
    exact (h.updateStage fun hstage => hstage.pushCommand command).of_frame rfl rfl

theorem enable (h : Alike counts device other) (enabled : PerStage Bool) :
    Alike counts { device with enabled } { other with enabled } :=
  ⟨h.geometry, rfl, h.handoff, h.counting, h.stage, h.cycles, h.uncounted⟩

/-- Turning counting on starts all counters from zero, so from then on they agree. -/
theorem switch (h : Alike counts device other) (counting : Bool) :
    (device.switch counting).Alike (counts || counting) (other.switch counting) := by
  unfold Device.switch
  rw [← h.counting]
  split
  next hturned =>
    refine ⟨h.geometry, h.enabled, h.handoff, rfl, fun stage => ?_, fun _ => rfl, fun huncounted => ?_⟩
    · simp only [PerStage.get_map]
      rw [(Bool.and_eq_true_iff.mp hturned).1, Bool.or_true]
      exact (h.stage stage).clearCycles
    · exact (Bool.or_eq_false_iff.mp huncounted).2
  next hkept =>
    -- counting that is on already was turned on before
    have hcounts : counts = false → counting = false := by
      intro huncounted
      simpa [h.uncounted huncounted] using hkept
    have hsame : (counts || counting) = counts := by
      cases counts with
      | true => rfl
      | false => exact hcounts rfl
    rw [hsame]
    exact ⟨h.geometry, h.enabled, h.handoff, rfl, h.stage, h.cycles, hcounts⟩

end Alike

/-- A device as it was at the beginning of a run, as far as no run changes it. -/
structure Kept (start device : Device) : Prop where
  geometry : device.geometry = start.geometry
  signature : device.signature = start.signature
  clock : device.clock = start.clock
  depth : ∀ stage, (device.stages.get stage).depth = (start.stages.get stage).depth
  stalled : ∀ stage, (device.stages.get stage).stalled = (start.stages.get stage).stalled

namespace Kept

variable {start device : Device}

theorem refl (start : Device) : Kept start start := ⟨rfl, rfl, rfl, fun _ => rfl, fun _ => rfl⟩

theorem lasting (start : Device) : Lasting (Kept start) where
  count h := ⟨h.geometry, h.signature, h.clock, h.depth, h.stalled⟩
  turn {device after stage} h hturn := by
    refine ⟨hturn.switches.2.2.trans h.geometry, ?_, ?_, fun stage => (hturn.frame stage).1.trans (h.depth stage),
      fun stage => (hturn.frame stage).2.1.trans (h.stalled stage)⟩
    · cases hturn with
      | off => exact h.signature
      | on _ _ hsettle =>
        rw [settle_frame _ hsettle]
        exact h.signature
    · cases hturn with
      | off => exact h.clock
      | on _ _ hsettle =>
        rw [settle_frame _ hsettle]
        exact h.clock
  accept {device entry} h := by
    have hstages := device.accept_keeps (fun stage controller => controller.depth = (start.stages.get stage).depth ∧
      controller.stalled = (start.stages.get stage).stalled) (fun _ controller token h => ?_)
      (fun _ controller command h => ?_) (fun stage => ⟨h.depth stage, h.stalled stage⟩) entry
    · have hrest : (device.accept entry).geometry = device.geometry ∧
          (device.accept entry).signature = device.signature ∧ (device.accept entry).clock = device.clock := by
        cases entry <;> exact ⟨rfl, rfl, rfl⟩
      exact ⟨hrest.1.trans h.geometry, hrest.2.1.trans h.signature, hrest.2.2.trans h.clock,
        fun stage => (hstages stage).1, fun stage => (hstages stage).2⟩
    · unfold Controller.pushToken
      split <;> exact h
    · unfold Controller.pushCommand
      split <;> exact h

theorem switch (h : Kept start device) (counting : Bool) : Kept start (device.switch counting) := by
  have hstages := device.switch_keeps (fun stage controller => controller.depth = (start.stages.get stage).depth ∧
    controller.stalled = (start.stages.get stage).stalled) (fun _ _ h => h)
    (fun stage => ⟨h.depth stage, h.stalled stage⟩) counting
  have hrest : (device.switch counting).signature = device.signature ∧
      (device.switch counting).clock = device.clock := by
    unfold Device.switch
    split <;> exact ⟨rfl, rfl⟩
  exact ⟨(device.switch_frame counting).1.trans h.geometry, hrest.1.trans h.signature, hrest.2.trans h.clock,
    fun stage => (hstages stage).1, fun stage => (hstages stage).2⟩

theorem reset (h : Kept start device) : Kept start device.reset := by
  have hstage (stage : Stage) : (device.reset.stages.get stage).depth = (device.stages.get stage).depth ∧
      (device.reset.stages.get stage).stalled = (device.stages.get stage).stalled := by
    rw [Device.reset, PerStage.get_map]
    exact ⟨rfl, rfl⟩
  exact ⟨h.geometry, h.signature, h.clock, fun stage => (hstage stage).1.trans (h.depth stage),
    fun stage => (hstage stage).2.trans (h.stalled stage)⟩

theorem operated (start : Device) : Operated fun _ recorded => Kept start recorded.device :=
  (lasting start).operated (fun _ _ h => ⟨h.geometry, h.signature, h.clock, h.depth, h.stalled⟩)
    fun _ counting h => h.switch counting

/-- However a run ends, the device is still what it was. -/
theorem streamThrough {options : Options} {surroundings : Surroundings} {patience : Nat} {schedule : Schedule}
    {start last : Recorded} {ended : Session.StreamEnd}
    (h : Session.streamThrough options surroundings patience schedule start = .ok (ended, last)) :
    Kept start.device last.device := by
  obtain ⟨_, reached, hreached, rfl⟩ := (operated start.device).streamThrough (refl start.device) h
  cases ended with
  | finished counters => exact hreached
  | stopped reason => exact hreached.reset
  | exhausted => exact hreached

end Kept

end Device

namespace Recorded

open Session (LoopEnd StreamEnd)

/-- Two recorded devices that stand alike, whatever happened to them before. -/
def Alike (counts : Bool) (recorded other : Recorded) : Prop := recorded.device.Alike counts other.device

namespace Alike

variable {counts : Bool} {recorded other : Recorded}

theorem tick (h : recorded.Alike counts other) : Agree (Alike counts) recorded.tick other.tick := by
  intro after otherAfter hafter hother
  exact Device.Alike.tick h (device_tick hafter) (device_tick hother)

theorem poll (h : recorded.Alike counts other) (stream : Stream) :
    Agree (fun answer found => answer.1 = found.1 ∧ answer.2.Alike counts found.2) (Transport.poll stream recorded)
      (Transport.poll stream other) := by
  rintro ⟨full, after⟩ ⟨otherFull, otherAfter⟩ hafter hother
  obtain ⟨hticked, rfl⟩ := poll_eq_ok_iff.mp hafter
  obtain ⟨hotherTicked, rfl⟩ := poll_eq_ok_iff.mp hother
  have halike := h.tick _ _ hticked hotherTicked
  exact ⟨Device.Alike.full halike stream, halike⟩

theorem push (h : recorded.Alike counts other) (entry : Entry) :
    Agree (Alike counts) (Transport.push entry recorded) (Transport.push entry other) := by
  intro after otherAfter hafter hother
  obtain ⟨ticked, hticked, rfl⟩ := push_eq_ok_iff.mp hafter
  obtain ⟨otherTicked, hotherTicked, rfl⟩ := push_eq_ok_iff.mp hother
  exact Device.Alike.accept (h.tick _ _ hticked hotherTicked) entry

theorem outstanding (h : recorded.Alike counts other) (stage : Stage) :
    Agree (fun answer found => answer.1 = found.1 ∧ answer.2.Alike counts found.2)
      (Accelerator.outstanding stage recorded) (Accelerator.outstanding stage other) := by
  rintro ⟨count, after⟩ ⟨otherCount, otherAfter⟩ hafter hother
  obtain ⟨hticked, hcount⟩ := outstanding_eq_ok_iff.mp hafter
  obtain ⟨hotherTicked, hotherCount⟩ := outstanding_eq_ok_iff.mp hother
  have halike := h.tick _ _ hticked hotherTicked
  rw [(Device.Alike.stage halike stage).outstanding, hotherCount] at hcount
  exact ⟨(Except.ok.inj hcount).symm, halike⟩

theorem setEnabled (h : recorded.Alike counts other) (enabled : PerStage Bool) :
    Agree (Alike counts) (Accelerator.setEnabled enabled recorded) (Accelerator.setEnabled enabled other) := by
  intro after otherAfter hafter hother
  obtain ⟨ticked, hticked, rfl⟩ := setEnabled_eq_ok_iff.mp hafter
  obtain ⟨otherTicked, hotherTicked, rfl⟩ := setEnabled_eq_ok_iff.mp hother
  exact Device.Alike.enable (h.tick _ _ hticked hotherTicked) enabled

theorem setCounting (h : recorded.Alike counts other) (counting : Bool) :
    Agree (Alike (counts || counting)) (Accelerator.setCounting counting recorded)
      (Accelerator.setCounting counting other) := by
  intro after otherAfter hafter hother
  obtain ⟨ticked, hticked, rfl⟩ := setCounting_eq_ok_iff.mp hafter
  obtain ⟨otherTicked, hotherTicked, rfl⟩ := setCounting_eq_ok_iff.mp hother
  exact Device.Alike.switch (h.tick _ _ hticked hotherTicked) counting

theorem stateCycles (h : recorded.Alike true other) (stage : Stage) (state : ControlState) :
    Agree (fun answer found => answer.1 = found.1 ∧ answer.2.Alike true found.2)
      (Accelerator.stateCycles stage state recorded) (Accelerator.stateCycles stage state other) := by
  rintro ⟨count, after⟩ ⟨otherCount, otherAfter⟩ hafter hother
  obtain ⟨hticked, rfl⟩ := stateCycles_eq_ok_iff.mp hafter
  obtain ⟨hotherTicked, rfl⟩ := stateCycles_eq_ok_iff.mp hother
  have halike := h.tick _ _ hticked hotherTicked
  exact ⟨congrArg (·.get state) ((Device.Alike.stage halike stage).cycles rfl), halike⟩

theorem cycleCount (h : recorded.Alike true other) :
    Agree (fun answer found => answer.1 = found.1 ∧ answer.2.Alike true found.2) (Accelerator.cycleCount recorded)
      (Accelerator.cycleCount other) := by
  rintro ⟨count, after⟩ ⟨otherCount, otherAfter⟩ hafter hother
  obtain ⟨hticked, rfl⟩ := cycleCount_eq_ok_iff.mp hafter
  obtain ⟨hotherTicked, rfl⟩ := cycleCount_eq_ok_iff.mp hother
  have halike := h.tick _ _ hticked hotherTicked
  exact ⟨Device.Alike.cycles halike rfl, halike⟩

theorem visit (h : recorded.Alike counts other) {α : Type} (stream : Stream) (entry : α → Entry) (list : List α) :
    Agree (fun found visited => found.1 = visited.1 ∧ found.2.1 = visited.2.1 ∧ found.2.2.Alike counts visited.2.2)
      (Feed.visit stream entry list recorded) (Feed.visit stream entry list other) := by
  induction list generalizing recorded other with
  | nil => exact .ok ⟨rfl, rfl, h⟩
  | cons first rest ih =>
    refine (h.poll stream).bind ?_
    rintro ⟨full, polled⟩ ⟨_, otherPolled⟩ ⟨rfl, hpolled⟩
    cases full with
    | true => exact .ok ⟨rfl, rfl, hpolled⟩
    | false =>
      refine (hpolled.push (entry first)).bind fun pushed otherPushed hpushed => (ih hpushed).bind ?_
      rintro ⟨left, count, visited⟩ ⟨_, _, otherVisited⟩ ⟨rfl, rfl, hvisited⟩
      exact .ok ⟨rfl, rfl, hvisited⟩

theorem visitStream (h : recorded.Alike counts other) (feed : Feed) (stream : Stream) :
    Agree (fun found visited => found.1 = visited.1 ∧ found.2.Alike counts visited.2) (feed.visitStream stream recorded)
      (feed.visitStream stream other) := by
  cases stream with
  | token stage =>
    refine (h.visit _ _ _).bind ?_
    rintro ⟨left, pushed, visited⟩ ⟨_, _, otherVisited⟩ ⟨rfl, rfl, hvisited⟩
    exact .ok ⟨rfl, hvisited⟩
  | command stage =>
    refine (h.visit _ _ _).bind ?_
    rintro ⟨left, pushed, visited⟩ ⟨_, _, otherVisited⟩ ⟨rfl, rfl, hvisited⟩
    exact .ok ⟨rfl, hvisited⟩

theorem visitStreams (h : recorded.Alike counts other) (streams : List Stream) (feed : Feed) :
    Agree (fun found visited => found.1 = visited.1 ∧ found.2.Alike counts visited.2)
      (Feed.visitStreams streams feed recorded) (Feed.visitStreams streams feed other) := by
  induction streams generalizing recorded other feed with
  | nil => exact .ok ⟨rfl, h⟩
  | cons stream rest ih =>
    refine (h.visitStream feed stream).bind ?_
    rintro ⟨next, visited⟩ ⟨_, otherVisited⟩ ⟨rfl, hvisited⟩
    exact ih hvisited next

theorem fill (h : recorded.Alike counts other) (feed : Feed) :
    Agree (fun found filled => found.1 = filled.1 ∧ found.2.Alike counts filled.2) (feed.fill recorded)
      (feed.fill other) := by
  refine (h.visitStreams Stream.all feed).bind ?_
  rintro ⟨next, visited⟩ ⟨_, otherVisited⟩ ⟨rfl, hvisited⟩
  exact .ok ⟨rfl, hvisited⟩

theorem start (h : recorded.Alike counts other) (schedule : Schedule) :
    Agree (fun found started => found.1 = started.1 ∧ found.2.Alike true started.2) (Session.start schedule recorded)
      (Session.start schedule other) := by
  refine (h.setEnabled _).bind fun disabled otherDisabled hdisabled => (hdisabled.fill _).bind ?_
  rintro ⟨feed, filled⟩ ⟨_, otherFilled⟩ ⟨rfl, hfilled⟩
  refine (hfilled.setCounting true).bind fun counting otherCounting hcounting => ?_
  rw [Bool.or_true] at hcounting
  exact (hcounting.setEnabled _).bind fun enabled otherEnabled henabled => .ok ⟨rfl, henabled⟩

variable {options otherOptions : Options} {surroundings otherSurroundings : Surroundings}

/-- Two hosts that feed all of a schedule make the same passes. -/
theorem feedAll (h : recorded.Alike counts other) (patience otherPatience asked otherAsked : Nat) (feed : Feed) :
    Agree (fun found fed => found.1 = .done → fed.1 = .done → found.2.2.2.Alike counts fed.2.2.2)
      (Session.feedAll options surroundings patience asked feed recorded)
      (Session.feedAll otherOptions otherSurroundings otherPatience otherAsked feed other) := by
  induction patience generalizing recorded other otherPatience asked otherAsked feed with
  | zero =>
    by_cases hall : feed.allPushed = true
    · rw [Session.feedAll_allPushed hall, Session.feedAll_allPushed hall]
      exact .ok fun _ _ => h
    · rintro _ _ ⟨⟩ _ hdone
      rw [if_neg hall] at hdone
      cases hdone
  | succ patience ih =>
    by_cases hall : feed.allPushed = true
    · rw [Session.feedAll_allPushed hall, Session.feedAll_allPushed hall]
      exact .ok fun _ _ => h
    cases otherPatience with
    | zero =>
      rintro _ _ _ ⟨⟩ _ hdone
      rw [if_neg hall] at hdone
      cases hdone
    | succ otherPatience =>
      rw [Session.feedAll, Session.feedAll, if_neg hall, if_neg hall]
      cases options.stop? (surroundings asked) .push with
      | some reason =>
        rintro _ _ ⟨⟩ _ hdone
        cases hdone
      | none =>
        cases otherOptions.stop? (otherSurroundings otherAsked) .push with
        | some reason =>
          rintro _ _ _ ⟨⟩ _ hdone
          cases hdone
        | none =>
          refine (h.fill feed).bind ?_
          rintro ⟨next, filled⟩ ⟨_, otherFilled⟩ ⟨rfl, hfilled⟩
          exact ih hfilled otherPatience (asked + 1) (otherAsked + 1) next

/-- Two hosts that wait until the result stage has nothing left ask equally often. -/
theorem awaitResult (h : recorded.Alike counts other) (patience otherPatience asked otherAsked : Nat) :
    Agree (fun found awaited => found.1 = .done → awaited.1 = .done → found.2.Alike counts awaited.2)
      (Session.awaitResult options surroundings patience asked recorded)
      (Session.awaitResult otherOptions otherSurroundings otherPatience otherAsked other) := by
  induction patience generalizing recorded other otherPatience asked otherAsked with
  | zero =>
    rintro _ _ ⟨⟩ _ hdone
    cases hdone
  | succ patience ih =>
    cases otherPatience with
    | zero =>
      rintro _ _ _ ⟨⟩ _ hdone
      cases hdone
    | succ otherPatience =>
      refine (h.outstanding .result).bind ?_
      rintro ⟨count, polled⟩ ⟨_, otherPolled⟩ ⟨rfl, hpolled⟩
      by_cases hzero : count = 0
      · simp only [if_pos hzero]
        exact .ok fun _ _ => hpolled
      · simp only [if_neg hzero]
        cases options.stop? (surroundings asked) .completion with
        | some reason =>
          rintro _ _ ⟨⟩ _ hdone
          cases hdone
        | none =>
          cases otherOptions.stop? (otherSurroundings otherAsked) .completion with
          | some reason =>
            rintro _ _ _ ⟨⟩ _ hdone
            cases hdone
          | none => exact ih hpolled otherPatience (asked + 1) (otherAsked + 1)

theorem work (h : recorded.Alike counts other) (patience otherPatience : Nat) (feed : Feed) :
    Agree (fun found worked => found.1 = .done → worked.1 = .done → found.2.Alike counts worked.2)
      (Session.work options surroundings patience feed recorded)
      (Session.work otherOptions otherSurroundings otherPatience feed other) := by
  refine (h.feedAll patience otherPatience 0 0 feed).bind ?_
  rintro ⟨ended, asked, _, fed⟩ ⟨otherEnded, otherAsked, _, otherFed⟩ hfed
  cases ended with
  | done =>
    cases otherEnded with
    | done => exact (hfed rfl rfl).awaitResult patience otherPatience asked otherAsked
    | stopped reason =>
      rintro _ _ _ ⟨⟩ _ hdone
      cases hdone
    | exhausted =>
      rintro _ _ _ ⟨⟩ _ hdone
      cases hdone
  | stopped reason =>
    rintro _ _ ⟨⟩ _ hdone
    cases hdone
  | exhausted =>
    rintro _ _ ⟨⟩ _ hdone
    cases hdone

theorem readStage (h : recorded.Alike true other) (stage : Stage) :
    Agree (fun found read => found.1 = read.1 ∧ found.2.Alike true read.2) (Session.readStage recorded stage)
      (Session.readStage other stage) := by
  refine (h.stateCycles stage .command).bind ?_
  rintro ⟨command, first⟩ ⟨_, otherFirst⟩ ⟨rfl, hfirst⟩
  refine (hfirst.stateCycles stage .run).bind ?_
  rintro ⟨run, second⟩ ⟨_, otherSecond⟩ ⟨rfl, hsecond⟩
  refine (hsecond.stateCycles stage .send).bind ?_
  rintro ⟨send, third⟩ ⟨_, otherThird⟩ ⟨rfl, hthird⟩
  refine (hthird.stateCycles stage .receive).bind ?_
  rintro ⟨receive, last⟩ ⟨_, otherLast⟩ ⟨rfl, hlast⟩
  exact .ok ⟨rfl, hlast⟩

theorem readCounters (h : recorded.Alike true other) :
    Agree (fun found read => found.1 = read.1) (Session.readCounters recorded) (Session.readCounters other) := by
  refine (h.readStage .fetch).bind ?_
  rintro ⟨fetch, first⟩ ⟨_, otherFirst⟩ ⟨rfl, hfirst⟩
  refine (hfirst.readStage .execute).bind ?_
  rintro ⟨execute, second⟩ ⟨_, otherSecond⟩ ⟨rfl, hsecond⟩
  refine (hsecond.readStage .result).bind ?_
  rintro ⟨result, third⟩ ⟨_, otherThird⟩ ⟨rfl, hthird⟩
  refine hthird.cycleCount.bind ?_
  rintro ⟨cycles, last⟩ ⟨_, otherLast⟩ ⟨rfl, _⟩
  exact .ok rfl

theorem halt (h : recorded.Alike true other) :
    Agree (Alike true) (Session.halt recorded) (Session.halt other) :=
  (h.setEnabled _).bind fun _ _ hdisabled => hdisabled.setCounting false

/-- A schedule that is streamed to its end takes the same time on devices that are alike. -/
theorem streamThrough (h : recorded.Alike counts other) (patience otherPatience : Nat) (schedule : Schedule) :
    Agree (fun found streamed => ∀ counters otherCounters, found.1 = .finished counters →
        streamed.1 = .finished otherCounters → counters = otherCounters)
      (Session.streamThrough options surroundings patience schedule recorded)
      (Session.streamThrough otherOptions otherSurroundings otherPatience schedule other) := by
  refine (h.start schedule).bind ?_
  rintro ⟨feed, started⟩ ⟨_, otherStarted⟩ ⟨rfl, hstarted⟩
  refine (hstarted.work patience otherPatience feed).bind ?_
  rintro ⟨ended, worked⟩ ⟨otherEnded, otherWorked⟩ hworked
  rintro ⟨streamEnd, last⟩ ⟨otherStreamEnd, otherLast⟩ hlast hotherLast counters otherCounters hend hotherEnd
  dsimp only at hend hotherEnd
  subst hend
  subst hotherEnd
  cases ended with
  | exhausted => cases hlast
  | stopped reason =>
    obtain ⟨_, _, hlast⟩ := bind_eq_ok_iff.mp hlast
    cases hlast
  | done =>
    cases otherEnded with
    | exhausted => cases hotherLast
    | stopped reason =>
      obtain ⟨_, _, hotherLast⟩ := bind_eq_ok_iff.mp hotherLast
      cases hotherLast
    | done =>
      obtain ⟨halted, hhalt, hlast⟩ := bind_eq_ok_iff.mp hlast
      obtain ⟨otherHalted, hotherHalt, hotherLast⟩ := bind_eq_ok_iff.mp hotherLast
      obtain ⟨read, hread, hlast⟩ := bind_eq_ok_iff.mp hlast
      obtain ⟨otherRead, hotherRead, hotherLast⟩ := bind_eq_ok_iff.mp hotherLast
      have hsame := ((hworked rfl rfl).halt _ _ hhalt hotherHalt).readCounters _ _ hread hotherRead
      cases hlast
      cases hotherLast
      exact hsame

end Alike

end Recorded

end BitSerial
