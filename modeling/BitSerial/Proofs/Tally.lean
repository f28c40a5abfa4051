import BitSerial.Proofs.Progress
import BitSerial.Proofs.Streaming

/-! # What the counters count

Every cycle that is counted is counted once for the device and, while the stages are on, once for each of them, in the
state that the stage is in when the cycle begins. Counting is turned on one cycle before the stages are, and turned off
one cycle after them, so that the global counter is two ahead of every stage. A stage spends one cycle on handing on
each of its operations and as many on working as its operations take.
-/

namespace BitSerial

/-- Whether an event begins a cycle that is counted. In every cycle, the fetch stage has the first turn. -/
def Event.counts : Event → Bool
  | .turn stage device => decide (stage = .fetch) && device.counting
  | .reset _ => false

/-- The cycles that were counted along a trail. -/
def countedCycles (trail : List Event) : Nat := trail.countP Event.counts

/-- A reset is not a cycle. -/
theorem countedCycles_reset (trail : List Event) (device : Device) :
    countedCycles (trail ++ [.reset device]) = countedCycles trail := by
  rw [countedCycles, List.countP_append]
  rfl

theorem Recorded.tick_counted {recorded after : Recorded} (htick : recorded.tick = .ok after) :
    countedCycles after.trail = countedCycles recorded.trail + if recorded.device.counting then 1 else 0 := by
  obtain ⟨fetched, executed, hfetch, hexecute, hresult⟩ := (Recorded.tick_eq_ok_iff _).mp htick
  obtain ⟨_, hfetch⟩ := (Recorded.turn_eq_ok_iff _).mp hfetch
  obtain ⟨_, hexecute⟩ := (Recorded.turn_eq_ok_iff _).mp hexecute
  obtain ⟨_, hresult⟩ := (Recorded.turn_eq_ok_iff _).mp hresult
  rw [hresult, hexecute, hfetch]
  simp [countedCycles, List.countP_append, List.countP_cons, Event.counts, Recorded.countTick, Device.countTick]

namespace StateCycles

variable {cycles : StateCycles}

theorem get_le_total (cycles : StateCycles) (state : ControlState) : cycles.get state ≤ cycles.total := by
  cases state <;> simp only [get, total] <;> omega

/-- A counter that is not full counts. -/
theorem count_eq (h : cycles.total + 1 < Word32.size) (state : ControlState) :
    cycles.count state = cycles.set (cycles.get state + 1) state := by
  have hget := cycles.get_le_total state
  unfold count
  rw [Nat.min_eq_left (by omega)]

theorem total_count (h : cycles.total + 1 < Word32.size) (state : ControlState) :
    (cycles.count state).total = cycles.total + 1 := by
  rw [count_eq h]
  cases state <;> simp only [set, get, total] <;> omega

theorem send_count (h : cycles.total + 1 < Word32.size) (state : ControlState) :
    (cycles.count state).send = cycles.send + if state = .send then 1 else 0 := by
  rw [count_eq h]
  cases state <;> rfl

theorem run_count (h : cycles.total + 1 < Word32.size) (state : ControlState) :
    (cycles.count state).run = cycles.run + if state = .run then 1 else 0 := by
  rw [count_eq h]
  cases state <;> rfl

end StateCycles

/-- The cycles that the operation in flight has still to work. -/
def Activity.left : Activity → Nat
  | .idle => 0
  | .receiving _ => 0
  | .running _ left => left
  | .sending _ => 0

theorem sum_take_add_one {work : Operation → Nat} {program : List Operation} {position : Nat} {operation : Operation}
    (h : program[position]? = some operation) :
    ((program.take (position + 1)).map work).sum = ((program.take position).map work).sum + work operation := by
  rw [List.take_add_one, h, Option.toList_some, List.map_append, List.sum_append, List.map_singleton,
    List.sum_singleton]

/-- The counters of a stage that was on for a number of cycles, all of them counted. -/
structure Controller.Tallied (work : Operation → Nat) (program : List Operation) (first elapsed : Nat)
    (controller : Controller) : Prop where
  /-- A frozen stage has not begun. -/
  idle : controller.stalled = true → controller.activity = .idle
  left_pos : ∀ operation left, controller.activity = .running operation left → 0 < left
  total : controller.cycles.total = elapsed
  send : first + controller.cycles.send = controller.completed
  /-- The cycles that were worked and those that are still to be worked are those of the operations begun. -/
  run : controller.cycles.run + controller.activity.left =
    ((program.take (controller.completed - first + controller.activity.held)).map work).sum

namespace Controller.Tallied

variable {work : Operation → Nat} {program : List Operation} {first elapsed : Nat} {controller other moved : Controller}

/-- The counters of a stage do not depend on what is queued. -/
theorem of_eq (h : controller.Tallied work program first elapsed) (hstalled : other.stalled = controller.stalled)
    (hactivity : other.activity = controller.activity) (hcycles : other.cycles = controller.cycles)
    (hcompleted : other.completed = controller.completed) : other.Tallied work program first elapsed := by
  constructor
  case idle => rw [hstalled, hactivity]; exact h.idle
  case left_pos => rw [hactivity]; exact h.left_pos
  case total => rw [hcycles]; exact h.total
  case send => rw [hcycles, hcompleted]; exact h.send
  case run => rw [hcycles, hactivity, hcompleted]; exact h.run

variable {duration : Operation → Except Fault Nat} {tokens : List Token} {commands : List Command} {position : Nat}
  {handoff after : Handoff} {finished : Option Operation}

/-- A cycle of a stage is counted in the state that it begins in. -/
theorem move (h : controller.Tallied (workCycles duration) program first elapsed)
    (hlane : Lane program tokens commands first controller position) (hfits : elapsed + 1 < Word32.size)
    (hmove : Move duration (controller.counted true) handoff finished moved after) :
    moved.Tallied (workCycles duration) program first (elapsed + 1) := by
  have hposition := hlane.completed
  have hflight := hlane.inFlight
  obtain ⟨depth, queued, commanded, activity, cycles, stalled, completed, overflows⟩ := controller
  obtain ⟨hidle, hpos, rfl, hsend, hrun⟩ := h
  change Move duration ⟨depth, queued, commanded, activity, cycles.count activity.state, stalled, completed, overflows⟩
    handoff finished moved after at hmove
  have htotal := StateCycles.total_count hfits activity.state
  have hsendCount := StateCycles.send_count hfits activity.state
  have hrunCount := StateCycles.run_count hfits activity.state
  generalize cycles.count activity.state = counted at hmove htotal hsendCount hrunCount
  dsimp only at hidle hpos hsend hrun hposition hflight
  cases hmove with
  | stand hstand =>
    -- a stage that stands is idle or lacks a region, so it neither works nor hands on
    have hstate : activity.state ≠ .send ∧ activity.state ≠ .run := by
      rcases hstand with hstalled | hwaits
      · simp [hidle hstalled, Activity.state]
      · cases activity with
        | idle => simp [Activity.state]
        | receiving operation => simp [Activity.state]
        | running operation left => exact hwaits.elim
        | sending operation => exact hwaits.elim
    rw [if_neg hstate.1] at hsendCount
    rw [if_neg hstate.2] at hrunCount
    exact ⟨hidle, hpos, htotal, hsendCount ▸ hsend, hrunCount ▸ hrun⟩
  | take hmoves hactivity =>
    cases hactivity
    exact ⟨fun hstalled => absurd (hmoves.symm.trans hstalled) Bool.false_ne_true, by rintro _ _ ⟨⟩, htotal, hsendCount ▸ hsend,
      hrunCount ▸ hrun⟩
  | @start operation begun _ hmoves hactivity hacquire hduration =>
    cases hactivity
    have hat := hflight operation rfl
    refine ⟨fun hstalled => absurd (hmoves.symm.trans hstalled) Bool.false_ne_true, ?_, htotal, hsendCount ▸ hsend, ?_⟩
    · rintro _ _ ⟨⟩
      exact Nat.lt_of_lt_of_le Nat.one_pos (Nat.le_max_right begun 1)
    · -- the work that begins is the work of the next operation of the program
      dsimp only at hrun ⊢
      simp only [hrunCount, Activity.left, Activity.held, Activity.state, reduceCtorEq, if_false, Nat.add_zero]
        at hrun ⊢
      rw [hposition, Nat.add_sub_cancel_left] at hrun ⊢
      rw [sum_take_add_one hat, ← hrun, workCycles_eq hduration]
  | @work operation left hmoves hactivity hleft =>
    cases hactivity
    refine ⟨fun hstalled => absurd (hmoves.symm.trans hstalled) Bool.false_ne_true, ?_, htotal, hsendCount ▸ hsend, ?_⟩
    · rintro _ _ ⟨⟩
      exact Nat.sub_pos_of_lt hleft
    · refine Eq.trans ?_ hrun
      simp only [hrunCount, Activity.left, Activity.state, if_true]
      omega
  | @finish operation left hmoves hactivity hleft =>
    cases hactivity
    have hone : left = 1 := Nat.le_antisymm hleft (hpos operation left rfl)
    refine ⟨fun hstalled => absurd (hmoves.symm.trans hstalled) Bool.false_ne_true, by rintro _ _ ⟨⟩, htotal, hsendCount ▸ hsend, ?_⟩
    refine Eq.trans ?_ hrun
    simp only [hrunCount, hone, Activity.left, Activity.state, if_true]
  | @handOn operation _ hmoves hactivity hrelease =>
    cases hactivity
    refine ⟨fun hstalled => absurd (hmoves.symm.trans hstalled) Bool.false_ne_true, by rintro _ _ ⟨⟩, htotal, ?_, ?_⟩
    · rw [hsendCount, ← hsend]
      rfl
    · have hnext : completed + 1 - first = completed - first + 1 := by omega
      dsimp only
      simp only [hrunCount, hnext, Activity.left, Activity.held, Activity.state, reduceCtorEq, if_false,
        Nat.add_zero] at hrun ⊢
      exact hrun

end Controller.Tallied

namespace Device

variable {device after : Device}

theorem Turn.cycles {stage : Stage} (h : device.Turn stage after) : after.cycles = device.cycles := by
  cases h with
  | off => rfl
  | on _ _ hsettle => rw [settle_frame _ hsettle, withMove]

/-- The turn of a stage that is on is a move of that stage. -/
theorem Turn.moved {stage : Stage} (h : device.Turn stage after) (hon : device.enabled.get stage = true) :
    ∃ handoff finished next, Controller.Move device.duration ((device.stages.get stage).counted device.counting) handoff
      finished (after.stages.get stage) next := by
  cases h with
  | off hoff =>
    rw [hon] at hoff
    cases hoff
  | on _ hmove hsettle =>
    rw [settle_frame _ hsettle, withMove]
    dsimp only
    rw [PerStage.get_set, if_pos rfl]
    exact ⟨_, _, _, hmove⟩

/-- In a cycle in which all stages are on, each of them moves once. -/
theorem tick_moves (henabled : device.enabled = .all true) (htick : device.tick = .ok after) (stage : Stage) :
    ∃ handoff finished next, Controller.Move device.duration ((device.stages.get stage).counted device.counting) handoff
      finished (after.stages.get stage) next := by
  obtain ⟨fetched, executed, hfetch, hexecute, hresult⟩ := device.tick_eq_ok_iff.mp htick
  have hfetch := tickStage_turn _ hfetch
  have hexecute := tickStage_turn _ hexecute
  have hresult := tickStage_turn _ hresult
  obtain ⟨hfetchedOn, hfetchedCounting, hfetchedGeometry⟩ := hfetch.switches
  obtain ⟨hexecutedOn, hexecutedCounting, hexecutedGeometry⟩ := hexecute.switches
  have hon (stage : Stage) : device.enabled.get stage = true := by
    rw [henabled, PerStage.get_all]
  -- the stages that do not have their turn stay where they are
  cases stage with
  | fetch =>
    have hlater : after.stages.get .fetch = fetched.stages.get .fetch := by
      rw [hresult.stage_of_ne (by decide), hexecute.stage_of_ne (by decide)]
    rw [hlater]
    exact hfetch.moved (hon .fetch)
  | execute =>
    have hbefore : fetched.stages.get .execute = device.stages.get .execute := hfetch.stage_of_ne nofun
    have hlater : after.stages.get .execute = executed.stages.get .execute := hresult.stage_of_ne nofun
    have hmoved := hexecute.moved (hfetchedOn ▸ hon .execute)
    rwa [hbefore, hfetchedCounting, duration_eq hfetchedGeometry, ← hlater] at hmoved
  | result =>
    have hbefore : executed.stages.get .result = device.stages.get .result := by
      rw [hexecute.stage_of_ne (by decide), hfetch.stage_of_ne (by decide)]
      rfl
    have hmoved := hresult.moved (hexecutedOn.trans hfetchedOn ▸ hon .result)
    rwa [hbefore, hexecutedCounting.trans hfetchedCounting,
      duration_eq (hexecutedGeometry.trans hfetchedGeometry)] at hmoved

/-- A cycle counts itself and switches nothing on or off. -/
theorem tick_counters (htick : device.tick = .ok after) :
    after.cycles = device.countTick.cycles ∧ after.enabled = device.enabled ∧ after.counting = device.counting := by
  obtain ⟨fetched, executed, hfetch, hexecute, hresult⟩ := device.tick_eq_ok_iff.mp htick
  have hturn {current after : Device} {stage : Stage} (hturn : current.tickStage stage = .ok after) :
      after.cycles = current.cycles ∧ after.enabled = current.enabled ∧ after.counting = current.counting :=
    have hturn := tickStage_turn _ hturn
    ⟨hturn.cycles, hturn.switches.1, hturn.switches.2.1⟩
  rw [(hturn hresult).1, (hturn hexecute).1, (hturn hfetch).1, (hturn hresult).2.1, (hturn hexecute).2.1,
    (hturn hfetch).2.1, (hturn hresult).2.2, (hturn hexecute).2.2, (hturn hfetch).2.2]
  exact ⟨rfl, rfl, rfl⟩

end Device

/-- A run counts no more cycles than the device goes through. -/
theorem counted_operated :
    Operated fun _ recorded => countedCycles recorded.trail ≤ recorded.device.statistics.ticks := by
  have htick {recorded after : Recorded} (h : countedCycles recorded.trail ≤ recorded.device.statistics.ticks)
      (htick : recorded.tick = .ok after) : countedCycles after.trail ≤ after.device.statistics.ticks := by
    rw [Recorded.tick_counted htick, Device.tick_ticks (Recorded.device_tick htick)]
    split
    · exact Nat.succ_le_succ h
    · exact Nat.le_succ_of_le h
  have hpush {recorded after : Recorded} {entry : Entry}
      (h : countedCycles recorded.trail ≤ recorded.device.statistics.ticks)
      (hpush : Transport.push entry recorded = .ok after) :
      countedCycles after.trail ≤ after.device.statistics.ticks := by
    obtain ⟨ticked, hticked, rfl⟩ := Recorded.push_eq_ok_iff.mp hpush
    have hbound := htick h hticked
    cases entry <;> exact hbound
  constructor
  case toDriven => exact ⟨htick, fun h _ _ => hpush h, fun h _ _ => hpush h⟩
  case enable =>
    intro _ _ _ _ h hwrite
    obtain ⟨ticked, hticked, rfl⟩ := Recorded.setEnabled_eq_ok_iff.mp hwrite
    have hbound := htick h hticked
    exact hbound
  case switch =>
    intro _ _ _ counting h hwrite
    obtain ⟨ticked, hticked, rfl⟩ := Recorded.setCounting_eq_ok_iff.mp hwrite
    rw [(ticked.device.switch_frame counting).2.2.2]
    exact htick h hticked

/-- A device that a schedule is streamed through while its stages are on and counted: as long as no counter is full,
they say how long the stages have been on. -/
structure Recorded.Tallied (schedule : Schedule) (start recorded : Recorded) : Prop where
  enabled : recorded.device.enabled = .all true
  counting : recorded.device.counting = true
  exact : ∃ elapsed, countedCycles recorded.trail = countedCycles start.trail + (elapsed + 1) ∧
    (elapsed + 1 < Word32.size → recorded.device.cycles = elapsed + 1 ∧
      ∀ stage, (recorded.device.stages.get stage).Tallied (workCycles start.device.duration) (schedule.program stage)
        (start.device.stages.get stage).completed elapsed)

/-- A device whose stages are off and not counted while the beginning of a schedule is queued. -/
structure Recorded.Dormant (start recorded : Recorded) : Prop where
  enabled : recorded.device.enabled = .all false
  counting : recorded.device.counting = false
  counted : countedCycles recorded.trail = countedCycles start.trail
  sequencers : recorded.device.SameSequencers start.device

/-- A device whose stages are off and not counted, with all its counters as they were. -/
structure Recorded.Halted (start recorded : Recorded) : Prop where
  enabled : recorded.device.enabled = .all false
  counting : recorded.device.counting = false
  counted : countedCycles recorded.trail = countedCycles start.trail
  cycles : recorded.device.cycles = start.device.cycles
  stages : recorded.device.stages = start.device.stages

/-- What cycles keep while something else is kept by feeding, and what pushed entries keep, is kept by feeding. -/
theorem Driven.with {keeps : Backlog → Recorded → Prop} (hdriven : Driven keeps) (also : Recorded → Prop)
    (htick : ∀ {left recorded after}, keeps left recorded → also recorded → recorded.tick = .ok after → also after)
    (haccept : ∀ {recorded entry}, also recorded → also { recorded with device := recorded.device.accept entry }) :
    Driven fun left recorded => keeps left recorded ∧ also recorded := by
  have hpush {left : Backlog} {recorded after : Recorded} {entry : Entry} (h : keeps left recorded ∧ also recorded)
      (hpush : Transport.push entry recorded = .ok after) : also after := by
    obtain ⟨ticked, hticked, rfl⟩ := Recorded.push_eq_ok_iff.mp hpush
    exact haccept (htick h.1 h.2 hticked)
  constructor
  case tick => exact fun h hticked => ⟨hdriven.tick h.1 hticked, htick h.1 h.2 hticked⟩
  case pushToken =>
    exact fun h hnext hroom hpushed => ⟨hdriven.pushToken h.1 hnext hroom hpushed, hpush h hpushed⟩
  case pushCommand =>
    exact fun h hnext hroom hpushed => ⟨hdriven.pushCommand h.1 hnext hroom hpushed, hpush h hpushed⟩

namespace Recorded

variable {schedule : Schedule} {start recorded after : Recorded} {left : Backlog}

theorem tick_of_disabled (h : recorded.device.enabled = .all false) (htick : recorded.tick = .ok after) :
    after.device = recorded.device.countTick := by
  have hdevice := device_tick htick
  rw [recorded.device.tick_of_disabled h] at hdevice
  exact (Except.ok.inj hdevice).symm

theorem Dormant.tick (h : Dormant start recorded) (htick : recorded.tick = .ok after) : Dormant start after := by
  have hcounted := tick_counted htick
  rw [h.counting, h.counted] at hcounted
  have hdevice := tick_of_disabled h.enabled htick
  constructor
  case enabled => rw [hdevice]; exact h.enabled
  case counting => rw [hdevice]; exact h.counting
  case counted => exact hcounted
  case sequencers => rw [hdevice]; exact h.sequencers

theorem Dormant.accept (h : Dormant start recorded) (entry : Entry) :
    Dormant start { recorded with device := recorded.device.accept entry } := by
  constructor
  case enabled => cases entry <;> exact h.enabled
  case counting => cases entry <;> exact h.counting
  case counted => exact h.counted
  case sequencers =>
    intro stage
    obtain ⟨hactivity, hcompleted⟩ := recorded.device.accept_sequencers entry stage
    exact ⟨hactivity.trans (h.sequencers stage).1, hcompleted.trans (h.sequencers stage).2⟩

theorem Tallied.tick (h : Tallied schedule start recorded) (hrest : start.device.Quiescent)
    (hreached : Reached schedule.program start left recorded) (htick : recorded.tick = .ok after) :
    Tallied schedule start after := by
  obtain ⟨henabled, hcounting, elapsed, hcounted, hexact⟩ := h
  obtain ⟨hcycles, hon, hcounts⟩ := Device.tick_counters (device_tick htick)
  have hnext := tick_counted htick
  rw [hcounting, if_pos rfl, hcounted] at hnext
  refine ⟨hon.trans henabled, hcounts.trans hcounting, elapsed + 1, hnext, fun hfits => ?_⟩
  obtain ⟨hglobal, hstages⟩ := hexact (Nat.lt_of_succ_lt hfits)
  constructor
  · rw [hcycles, Device.countTick, hcounting, hglobal]
    exact Word32.low_eq_self hfits
  · intro stage
    obtain ⟨handoff, finished, next, hmove⟩ := Device.tick_moves henabled (device_tick htick) stage
    rw [Device.duration_eq hreached.geometry, hcounting] at hmove
    have hlane := (hreached.flow schedule.program_staged hrest).lane stage
    exact (hstages stage).move hlane (Nat.lt_of_succ_lt hfits) hmove

theorem Tallied.accept (h : Tallied schedule start recorded) (entry : Entry) :
    Tallied schedule start { recorded with device := recorded.device.accept entry } := by
  obtain ⟨henabled, hcounting, elapsed, hcounted, hexact⟩ := h
  refine ⟨by cases entry <;> exact henabled, by cases entry <;> exact hcounting, elapsed, hcounted, fun hfits => ?_⟩
  obtain ⟨hglobal, hstages⟩ := hexact hfits
  refine ⟨by cases entry <;> exact hglobal, ?_⟩
  refine recorded.device.accept_keeps (fun stage controller => controller.Tallied (workCycles start.device.duration)
    (schedule.program stage) (start.device.stages.get stage).completed elapsed) ?_ ?_ hstages entry
  · intro stage controller token hcontroller
    unfold Controller.pushToken
    split <;> exact hcontroller.of_eq rfl rfl rfl rfl
  · intro stage controller command hcontroller
    unfold Controller.pushCommand
    split <;> exact hcontroller.of_eq rfl rfl rfl rfl

/-- Counting is turned on, and then the stages. The cycle of the second access is counted for the device alone. -/
theorem Dormant.enable (h : Dormant start recorded) (hrest : start.device.Quiescent) {counting : Recorded}
    (hcount : Accelerator.setCounting true recorded = .ok counting)
    (henable : Accelerator.setEnabled (.all true) counting = .ok after) :
    Tallied schedule start after ∧ countedCycles after.trail = countedCycles start.trail + 1 := by
  obtain ⟨ticked, hticked, rfl⟩ := setCounting_eq_ok_iff.mp hcount
  obtain ⟨last, hlast, rfl⟩ := setEnabled_eq_ok_iff.mp henable
  have hdormant := h.tick hticked
  have hswitch : ticked.device.switch true =
      { ticked.device with cycles := 0, stages := ticked.device.stages.map (·.clearCycles), counting := true } := by
    unfold Device.switch
    rw [hdormant.counting]
    rfl
  have hcounted := tick_counted hlast
  have hdevice := tick_of_disabled ((ticked.device.switch_frame true).2.1.trans hdormant.enabled) hlast
  dsimp only at hcounted hdevice
  rw [hswitch] at hcounted hdevice
  rw [hdormant.counted] at hcounted
  refine ⟨⟨rfl, ?_, 0, hcounted, fun _ => ⟨?_, fun stage => ?_⟩⟩, hcounted⟩
  · rw [hdevice]
    rfl
  · rw [hdevice]
    rfl
  · obtain ⟨hactivity, hcompleted⟩ := hdormant.sequencers stage
    rw [hrest.activity stage] at hactivity
    have hstage : last.device.stages.get stage = (ticked.device.stages.get stage).clearCycles := by
      rw [hdevice, Device.countTick, PerStage.get_map]
    dsimp only
    rw [hstage]
    constructor
    case idle => exact fun _ => hactivity
    case left_pos => exact fun operation left hrunning => absurd (hactivity.symm.trans hrunning) nofun
    case total => rfl
    case send => exact hcompleted.symm
    case run =>
      change 0 + (ticked.device.stages.get stage).activity.left = (List.map _ (List.take
        ((ticked.device.stages.get stage).completed - _ + (ticked.device.stages.get stage).activity.held) _)).sum
      rw [hactivity, hcompleted, Nat.sub_self]
      rfl

/-- The stages are turned off, and then counting. The cycle of the second access is counted for the device alone. -/
theorem Tallied.halt (h : Tallied schedule start recorded) (hrest : start.device.Quiescent)
    (hreached : Reached schedule.program start left recorded) (hhalt : Session.halt recorded = .ok after) :
    ∃ elapsed, countedCycles after.trail = countedCycles start.trail + (elapsed + 2) ∧
      (elapsed + 2 < Word32.size → after.device.cycles = elapsed + 2 ∧
        ∀ stage, (after.device.stages.get stage).Tallied (workCycles start.device.duration) (schedule.program stage)
          (start.device.stages.get stage).completed elapsed) := by
  simp only [Session.halt, bind_eq_ok_iff] at hhalt
  obtain ⟨disabled, hdisable, hcount⟩ := hhalt
  obtain ⟨ticked, hticked, rfl⟩ := setEnabled_eq_ok_iff.mp hdisable
  obtain ⟨last, hlast, rfl⟩ := setCounting_eq_ok_iff.mp hcount
  obtain ⟨_, hcounting, elapsed, hcounted, hexact⟩ := h.tick hrest hreached hticked
  have hnext := tick_counted hlast
  have hdevice := tick_of_disabled rfl hlast
  dsimp only at hnext hdevice
  rw [hcounting, if_pos rfl, hcounted] at hnext
  have hswitch : last.device.switch false = { last.device with counting := false } := by
    unfold Device.switch
    rfl
  refine ⟨elapsed, hnext, fun hfits => ?_⟩
  obtain ⟨hglobal, hstages⟩ := hexact (Nat.lt_of_succ_lt hfits)
  dsimp only
  rw [hswitch, hdevice]
  refine ⟨?_, hstages⟩
  change (if ticked.device.counting then Word32.low (ticked.device.cycles + 1) else ticked.device.cycles) = _
  rw [hcounting, if_pos rfl, hglobal]
  exact Word32.low_eq_self hfits

theorem Halted.tick (h : Halted start recorded) (htick : recorded.tick = .ok after) : Halted start after := by
  have hcounted := tick_counted htick
  rw [h.counting, h.counted] at hcounted
  have hdevice := tick_of_disabled h.enabled htick
  constructor
  case enabled => rw [hdevice]; exact h.enabled
  case counting => rw [hdevice]; exact h.counting
  case counted => exact hcounted
  case cycles => rw [hdevice, Device.countTick, h.counting]; exact h.cycles
  case stages => rw [hdevice]; exact h.stages

theorem Halted.readStage (h : Halted start recorded) {stage : Stage} {cycles : StateCycles}
    (hread : Session.readStage recorded stage = .ok (cycles, after)) :
    Halted start after ∧ cycles = (start.device.stages.get stage).cycles := by
  simp only [Session.readStage, bind_eq_ok_iff, pure_eq_ok_iff, Prod.exists, Prod.mk.injEq,
    stateCycles_eq_ok_iff] at hread
  obtain ⟨_, first, ⟨hfirst, rfl⟩, _, second, ⟨hsecond, rfl⟩, hread⟩ := hread
  obtain ⟨_, third, ⟨hthird, rfl⟩, _, last, ⟨hlast, rfl⟩, rfl, rfl⟩ := hread
  have hcommand := h.tick hfirst
  have hrun := hcommand.tick hsecond
  have hsend := hrun.tick hthird
  have hreceive := hsend.tick hlast
  refine ⟨hreceive, ?_⟩
  rw [hcommand.stages, hrun.stages, hsend.stages, hreceive.stages]
  rfl

/-- Reading the counters of a device that is off changes none of them. -/
theorem readCounters_of_off (hoff : recorded.device.Off) {counters : Counters}
    (hread : Session.readCounters recorded = .ok (counters, after)) :
    countedCycles after.trail = countedCycles recorded.trail ∧ counters.cycles = recorded.device.cycles ∧
      ∀ stage, counters.stages.get stage = (recorded.device.stages.get stage).cycles := by
  simp only [Session.readCounters, bind_eq_ok_iff, pure_eq_ok_iff, Prod.exists, Prod.mk.injEq,
    cycleCount_eq_ok_iff] at hread
  obtain ⟨_, fetched, hfetch, _, executed, hexecute, _, written, hresult, _, last, ⟨hlast, rfl⟩, rfl, rfl⟩ := hread
  have hbegin : Halted recorded recorded := ⟨hoff.enabled, hoff.counting, rfl, rfl, rfl⟩
  obtain ⟨hfetched, rfl⟩ := hbegin.readStage hfetch
  obtain ⟨hexecuted, rfl⟩ := hfetched.readStage hexecute
  obtain ⟨hwritten, rfl⟩ := hexecuted.readStage hresult
  have hread := hwritten.tick hlast
  refine ⟨hread.counted, hread.cycles, fun stage => ?_⟩
  cases stage <;> rfl

end Recorded

section Run

variable {schedule : Schedule} {start last started : Recorded} {feed : Feed}

/-- A run begins with nothing counted but the cycle that turns the stages on. -/
theorem Session.start_tallied (hoff : start.device.Off) (hstart : Session.start schedule start = .ok (feed, started)) :
    (Reached schedule.program start feed.backlog started ∧ Recorded.Tallied schedule start started) ∧
      countedCycles started.trail = countedCycles start.trail + 1 := by
  refine (and_assoc.mpr ⟨Reached.operated.start .start hstart, ?_⟩)
  simp only [Session.start, bind_eq_ok_iff, pure_eq_ok_iff, Prod.exists, Prod.mk.injEq] at hstart
  obtain ⟨disabled, hdisable, next, filled, hfill, counting, hcount, enabled, henable, rfl, rfl⟩ := hstart
  have hbegin : start.Dormant start := ⟨hoff.enabled, hoff.counting, rfl, fun _ => ⟨rfl, rfl⟩⟩
  have hreached := (@Reached.start schedule.program start).setEnabled hdisable
  obtain ⟨ticked, hticked, rfl⟩ := Recorded.setEnabled_eq_ok_iff.mp hdisable
  obtain ⟨_, hcounting, hcounted, hsequencers⟩ := hbegin.tick hticked
  have hdriven := (@Reached.operated schedule.program start).toDriven.with start.Dormant
    (fun _ h htick => h.tick htick) fun h => h.accept _
  rw [← Feed.ofSchedule_backlog] at hreached
  exact (hdriven.fill ⟨hreached, rfl, hcounting, hcounted, hsequencers⟩ hfill).2.enable hoff.quiescent hcount henable

/-- What the counters say after a run that came through, if none of them was full. -/
theorem streamThrough_tallied {steps : Nat} (hrotates : schedule.Rotates steps) (hoff : start.device.Off)
    {options : Options} {surroundings : Surroundings} {patience : Nat} {counters : Counters}
    (h : Session.streamThrough options surroundings patience schedule start = .ok (.finished counters, last))
    (hfits : countedCycles last.trail < countedCycles start.trail + Word32.size) :
    countedCycles last.trail = countedCycles start.trail + counters.cycles ∧
      ∀ stage, (counters.stages.get stage).total + 2 = counters.cycles ∧
        (counters.stages.get stage).send = (schedule.program stage).length ∧
        (counters.stages.get stage).run = ((schedule.program stage).map (workCycles start.device.duration)).sum := by
  simp only [Session.streamThrough, bind_eq_ok_iff, Prod.exists] at h
  obtain ⟨feed, started, hstart, loopEnd, worked, hwork, h⟩ := h
  have hdriven := (@Reached.operated schedule.program start).toDriven.with (Recorded.Tallied schedule start)
    (fun hreached h htick => h.tick hoff.quiescent hreached htick) fun h => h.accept _
  obtain ⟨left, ⟨hreached, htallied⟩, hdone⟩ := hdriven.work (Session.start_tallied hoff hstart).1 hwork
  cases loopEnd with
  | exhausted => cases h
  | stopped reason =>
    simp only [bind_eq_ok_iff, pure_eq_ok_iff, Prod.mk.injEq] at h
    obtain ⟨_, _, h, _⟩ := h
    cases h
  | done =>
    obtain ⟨hempty, hzero⟩ := hdone rfl
    have hquiescent := (hreached.flow schedule.program_staged hoff.quiescent).quiescent hrotates hempty hzero
    simp only [bind_eq_ok_iff, pure_eq_ok_iff, Prod.exists, Prod.mk.injEq] at h
    obtain ⟨halted, hhalt, found, read, hread, hended, rfl⟩ := h
    cases hended
    obtain ⟨elapsed, hcounted, hexact⟩ := htallied.halt hoff.quiescent hreached hhalt
    have hhalted := Recorded.halt_off hquiescent hhalt
    obtain ⟨hcountedRead, hcycles, hcounters⟩ := Recorded.readCounters_of_off hhalted hread
    rw [hcountedRead, hcounted] at hfits ⊢
    obtain ⟨hglobal, hstages⟩ := hexact (Nat.lt_of_add_lt_add_left hfits)
    rw [hcycles, hglobal]
    refine ⟨rfl, fun stage => ?_⟩
    have hlane := ((Reached.operated.halt hreached hhalt).flow schedule.program_staged hoff.quiescent).lane stage
    rw [(hempty stage).1, (hempty stage).2] at hlane
    have hcompleted := hlane.completed
    have hthrough := hlane.through (by
      rw [Controller.outstanding, hhalted.quiescent.activity stage, ← Queue.length_toList,
        hhalted.quiescent.tokens stage]
      rfl)
    obtain ⟨_, _, htotal, hsend, hrun⟩ := hstages stage
    rw [hthrough] at hcompleted
    rw [hhalted.quiescent.activity stage, hcompleted, Nat.add_sub_cancel_left] at hrun
    rw [hcounters stage]
    refine ⟨congrArg (· + 2) htotal, by omega, ?_⟩
    rwa [Activity.left, Activity.held, Nat.add_zero, Nat.add_zero, List.take_length] at hrun

end Run

end BitSerial
