import BitSerial.Proofs.Alignment
import BitSerial.Proofs.GivingUp
import BitSerial.Proofs.Overflow

/-! # A result stage with too many operations

A register says how many operations a stage has, those that are queued and the one in flight. It has 32 bits, and so has
the depth of the queues: a queue of 2^32 - 1 entries can be full while one more operation is in flight, and then the
register cannot say so. A run asks for that register when all is pushed. That is soon enough if every program is longer
than its queues by one operation: the stages take an operation each in the first cycle in which they are on, so the next
pass pushes all that was left. Only a few cycles have passed then, and if the first fetch takes longer than that, the
result stage has not got anything done.
-/

namespace BitSerial

namespace Feed

variable {feed fed : Feed} {recorded after : Recorded}

/-- A visit takes two cycles for each entry that it finds, at most. -/
theorem visit_counted {α : Type} {stream : Stream} {entry : α → Entry} {list rest : List α} {pushed : Nat}
    (h : visit stream entry list recorded = .ok (rest, pushed, after)) :
    countedCycles after.trail ≤ countedCycles recorded.trail + 2 * list.length := by
  have hcounted {recorded after : Recorded} (htick : recorded.tick = .ok after) :
      countedCycles after.trail ≤ countedCycles recorded.trail + 1 := by
    rw [Recorded.tick_counted htick]
    split <;> omega
  induction list generalizing recorded pushed with
  | nil =>
    cases h
    exact Nat.le_refl _
  | cons first others ih =>
    simp only [visit, bind_eq_ok_iff, Prod.exists] at h
    obtain ⟨full, polled, hpolled, h⟩ := h
    have hpoll := hcounted (Recorded.poll_eq_ok_iff.mp hpolled).1
    rw [List.length_cons]
    cases full with
    | true =>
      cases h
      omega
    | false =>
      obtain ⟨taken, hpushed, h⟩ := bind_eq_ok_iff.mp h
      obtain ⟨ticked, hticked, rfl⟩ := Recorded.push_eq_ok_iff.mp hpushed
      obtain ⟨⟨later, count, last⟩, hlater, h⟩ := bind_eq_ok_iff.mp h
      cases h
      have hpush := hcounted hticked
      have hrest := ih hlater
      change countedCycles last.trail ≤ countedCycles ticked.trail + 2 * others.length at hrest
      change countedCycles last.trail ≤ _
      omega

theorem visitStream_counted {stream : Stream} (h : feed.visitStream stream recorded = .ok (fed, after)) :
    countedCycles after.trail ≤ countedCycles recorded.trail + 2 * feed.remaining stream := by
  cases stream with
  | token stage =>
    simp only [visitStream, bind_eq_ok_iff, pure_eq_ok_iff, Prod.exists, Prod.mk.injEq] at h
    obtain ⟨rest, pushed, last, hvisit, -, rfl⟩ := h
    exact visit_counted hvisit
  | command stage =>
    simp only [visitStream, bind_eq_ok_iff, pure_eq_ok_iff, Prod.exists, Prod.mk.injEq] at h
    obtain ⟨rest, pushed, last, hvisit, -, rfl⟩ := h
    exact visit_counted hvisit

/-- Feeding does not make more of what is left on a stream. -/
theorem keeps_remaining {σ : Type} [Transport σ] (stream : Stream) (bound : Nat) :
    Keeps fun left (_ : σ) => (left stream).length ≤ bound where
  refused h _ := h
  taken {left _ _ _ asked entry rest} h hnext _ _ := by
    by_cases hasked : stream = asked
    · subst hasked
      rw [Function.update_self]
      rw [hnext, List.length_cons] at h
      exact Nat.le_of_succ_le h
    · rwa [Function.update_of_ne hasked]

theorem visitStream_remaining {stream : Stream} (h : feed.visitStream stream recorded = .ok (fed, after))
    (other : Stream) : fed.remaining other ≤ feed.remaining other := by
  rw [← length_left, ← length_left]
  exact ((keeps_remaining other _).visitStream (Nat.le_refl _) h).1

end Feed

section Starting

variable {schedule : Schedule} {steps : Nat} {start recorded after : Recorded} {left : Backlog} {feed fed : Feed}

/-- Before the first fetch is done, no result is. -/
theorem Reached.result_eq_zero (hrest : start.device.Quiescent) (h : Reached schedule.program start left recorded)
    (hfetch : start.device.doneSince recorded.device .fetch = 0) :
    start.device.doneSince recorded.device .result = 0 := by
  obtain ⟨-, hoperandFull, -, hresultFull⟩ := (h.flow schedule.program_staged hrest).regions
  rw [hfetch] at hoperandFull
  have hexecute : start.device.doneSince recorded.device .execute = 0 := by omega
  rw [hexecute, flagged_zero] at hresultFull
  omega

/-- A stage that is free to move and comes to be idle lacks something in its queues, or has handed on an operation. -/
theorem Controller.Move.idle_cases {duration : Operation → Except Fault Nat} {controller moved : Controller}
    {handoff next : Handoff} {finished : Option Operation}
    (h : Move duration controller handoff finished moved next) (hmoves : controller.stalled = false)
    (hidle : moved.activity = .idle) :
    (moved.tokens.toList = [] ∨ moved.commands.toList = []) ∨ controller.completed < moved.completed := by
  cases h with
  | stand hstand =>
    rcases hstand with hstalled | hwaits
    · rw [hmoves] at hstalled
      cases hstalled
    · unfold Controller.Waits at hwaits
      rw [hidle] at hwaits
      exact .inl hwaits
  | take => cases hidle
  | start => cases hidle
  | work => cases hidle
  | finish => cases hidle
  | handOn => exact .inr (Nat.lt_succ_self _)

/-- A cycle that finds an entry left on each stream at most, of programs longer than the queues by one operation, finds
an operation queued for every stage. So it leaves no stage that has not taken one. -/
theorem Live.begun_of_tick (hrunnable : Runnable schedule steps start)
    (hlong : ∀ stage, (schedule.program stage).length = (start.device.stages.get stage).depth + 1)
    (h : Live schedule start feed.backlog recorded) (hfew : ∀ stream, feed.remaining stream ≤ 1)
    (htick : recorded.tick = .ok after) (stage : Stage) :
    1 ≤ start.device.doneSince after.device stage + (after.device.stages.get stage).activity.taken := by
  by_contra hnone
  have hrest := hrunnable.off.quiescent
  have hlane := ((Live.driven.tick h htick).1.flow schedule.program_staged hrest).lane stage
  have hdepth := hrunnable.depth stage
  have hprogram := hlong stage
  have hidle : (after.device.stages.get stage).activity = .idle := by
    cases hactivity : (after.device.stages.get stage).activity with
    | idle => rfl
    | receiving operation => simp [hactivity, Activity.taken] at hnone
    | running operation left => simp [hactivity, Activity.taken] at hnone
    | sending operation => simp [hactivity, Activity.taken] at hnone
  obtain ⟨_, _, _, hmove⟩ := Device.tick_moves h.2.enabled (Recorded.device_tick htick) stage
  obtain ⟨htokens, hcommands⟩ := hlane.length_eq
  have htokensLeft : (feed.backlog.tokens.get stage).length ≤ 1 := hfew (.token stage)
  have hcommandsLeft : (feed.backlog.commands.get stage).length ≤ 1 := hfew (.command stage)
  rw [← Queue.length_toList] at htokens hcommands
  rcases hmove.idle_cases ((Controller.counted_stalled _ _).trans (h.2.moves stage)) hidle with
    (hempty | hempty) | hdone
  · rw [hempty, List.length_nil] at htokens
    omega
  · rw [hempty, List.length_nil] at hcommands
    omega
  · have hbefore := ((h.1.flow schedule.program_staged hrest).lane stage).completed
    have hafter := hlane.completed
    rw [Controller.counted_completed] at hdone
    omega

/-- A queue that is full to its depth with one more entry to come would belong to a stage that has taken nothing. So
whoever is refused has nothing left to push. -/
theorem Live.exhausted_of_refused (hrunnable : Runnable schedule steps start)
    (hlong : ∀ stage, (schedule.program stage).length = (start.device.stages.get stage).depth + 1)
    (h : Live schedule start feed.backlog recorded) (hfew : ∀ stream, feed.remaining stream ≤ 1) {stream : Stream}
    (hpoll : Transport.poll stream recorded = .ok (true, after)) : feed.remaining stream = 0 := by
  obtain ⟨htick, hfull⟩ := Recorded.poll_eq_ok_iff.mp hpoll
  have hrest := hrunnable.off.quiescent
  have hreached := (Live.driven.tick h htick).1
  have hbegun := h.begun_of_tick hrunnable hlong hfew htick
  cases stream with
  | token stage =>
    have htokens := ((hreached.flow schedule.program_staged hrest).lane stage).length_eq.1
    have hdepth := ((hreached.ledger schedule.program_staged hrest).stages stage).2
    have hfull : _ ≤ (after.device.stages.get stage).tokens.length := of_decide_eq_true hfull
    have hstage := hbegun stage
    have hlength := hlong stage
    change (feed.backlog.tokens.get stage).length = 0
    omega
  | command stage =>
    have hcommands := ((hreached.flow schedule.program_staged hrest).lane stage).length_eq.2
    have hdepth := ((hreached.ledger schedule.program_staged hrest).stages stage).2
    have hfull : _ ≤ (after.device.stages.get stage).commands.length := of_decide_eq_true hfull
    have hstage := hbegun stage
    have hlength := hlong stage
    change (feed.backlog.commands.get stage).length = 0
    omega

/-- A pass over streams with one entry left pushes it, in no more than two cycles for each stream. -/
theorem Live.visitStreams_pushes (hrunnable : Runnable schedule steps start)
    (hlong : ∀ stage, (schedule.program stage).length = (start.device.stages.get stage).depth + 1)
    {keeps : Backlog → Recorded → Prop} (hdriven : Driven keeps)
    (hlive : ∀ {left recorded}, keeps left recorded → Live schedule start left recorded) {streams : List Stream}
    (h : keeps feed.backlog recorded) (hfew : ∀ stream, feed.remaining stream ≤ 1)
    (hvisit : Feed.visitStreams streams feed recorded = .ok (fed, after)) :
    keeps fed.backlog after ∧ (∀ stream, fed.remaining stream ≤ feed.remaining stream) ∧
      (∀ stream ∈ streams, fed.remaining stream = 0) ∧
        countedCycles after.trail ≤ countedCycles recorded.trail + 2 * streams.length := by
  induction streams generalizing feed recorded with
  | nil =>
    cases hvisit
    exact ⟨h, fun _ => Nat.le_refl _, nofun, Nat.le_refl _⟩
  | cons stream rest ih =>
    simp only [Feed.visitStreams, bind_eq_ok_iff, Prod.exists] at hvisit
    obtain ⟨next, visited, hfirst, hrest⟩ := hvisit
    have hless := Feed.visitStream_remaining hfirst
    have hfewNext (other : Stream) := Nat.le_trans (hless other) (hfew other)
    obtain ⟨hvisited, hend⟩ := hdriven.visitStream h hfirst
    have hexhausted : next.remaining stream = 0 := by
      rcases hend with hexhausted | ⟨before, hbefore, hpoll⟩
      · cases stream <;> exact List.length_eq_zero_iff.mpr hexhausted
      · exact (hlive hbefore).exhausted_of_refused hrunnable hlong hfewNext hpoll
    obtain ⟨hlast, hlessLater, hpushed, hcounted⟩ := ih hvisited hfewNext hrest
    have hvisitCounted := Feed.visitStream_counted hfirst
    have hone := hfew stream
    refine ⟨hlast, fun other => Nat.le_trans (hlessLater other) (hless other), ?_, ?_⟩
    · refine List.forall_mem_cons.mpr ⟨?_, hpushed⟩
      exact Nat.le_zero.mp (hexhausted ▸ hlessLater stream)
    · rw [List.length_cons]
      omega

/-- As long as no more cycles were counted than given, no fetch is done. -/
def Slow (start : Recorded) (cycles : Nat) (recorded : Recorded) : Prop :=
  countedCycles recorded.trail ≤ countedCycles start.trail + cycles →
    start.device.doneSince recorded.device .fetch = 0

/-- A run that has its stages on and counted, and has not had the time for a fetch. -/
def Beginning (schedule : Schedule) (start : Recorded) (cycles : Nat) (left : Backlog) (recorded : Recorded) : Prop :=
  (Live schedule start left recorded ∧ Recorded.Tallied schedule start recorded) ∧ Slow start cycles recorded

/-- A stage is done with an operation when it hands it on. -/
theorem Controller.Move.completed_cases {duration : Operation → Except Fault Nat} {controller moved : Controller}
    {handoff next : Handoff} {finished : Option Operation}
    (h : Move duration controller handoff finished moved next) :
    moved.completed = controller.completed ∨ ∃ operation, controller.activity = .sending operation ∧
      moved.activity = .idle ∧ moved.completed = controller.completed + 1 := by
  cases h with
  | handOn _ hactivity => exact .inr ⟨_, hactivity, rfl, rfl⟩
  | _ => exact .inl rfl

/-- The first fetch is not done before its cycles have passed. -/
theorem Slow.tick {cycles : Nat} (hrest : start.device.Quiescent) (hword : cycles < Word32.size)
    (hslow : ∀ operation, (schedule.program .fetch)[0]? = some operation →
      cycles ≤ workCycles start.device.duration operation)
    (hreached : Reached schedule.program start left recorded) (htallied : Recorded.Tallied schedule start recorded)
    (h : Slow start cycles recorded) (htick : recorded.tick = .ok after) : Slow start cycles after := by
  intro hcounted
  have hnone := h (by rw [Recorded.tick_counted htick] at hcounted; omega)
  obtain ⟨_, _, elapsed, helapsed, hexact⟩ := htallied.tick hrest hreached htick
  have hlane := (hreached.flow schedule.program_staged hrest).lane .fetch
  obtain ⟨_, _, _, hmove⟩ := Device.tick_moves htallied.enabled (Recorded.device_tick htick) .fetch
  rcases hmove.completed_cases with hsame | ⟨operation, hactivity, hidle, hdone⟩
  · rw [Controller.counted_completed] at hsame
    exact (congrArg (· - (start.device.stages.get .fetch).completed) hsame).trans hnone
  · -- the fetch that is handed on has worked for all of its cycles, and each of them was counted
    rw [Controller.counted_activity] at hactivity
    rw [Controller.counted_completed, hlane.completed, hnone, Nat.add_zero] at hdone
    have hfirst := hlane.inFlight operation (congrArg Activity.operation? hactivity)
    rw [hnone] at hfirst
    obtain ⟨-, -, htotal, -, hrun⟩ := (hexact (by omega)).2 .fetch
    have hsum := @sum_take_add_one (workCycles start.device.duration) _ _ _ hfirst
    have hwork := hslow operation hfirst
    have hle := (after.device.stages.get .fetch).cycles.get_le_total .run
    rw [hidle, hdone, Nat.add_sub_cancel_left] at hrun
    change (after.device.stages.get .fetch).cycles.run + 0 = ((List.take (0 + 1) _).map _).sum at hrun
    rw [hsum] at hrun
    change (after.device.stages.get .fetch).cycles.run ≤ _ at hle
    omega

theorem Slow.accept {cycles : Nat} (h : Slow start cycles recorded) (entry : Entry) :
    Slow start cycles { recorded with device := recorded.device.accept entry } := by
  intro hcounted
  rw [Device.doneSince, (recorded.device.accept_sequencers entry .fetch).2]
  exact h hcounted

theorem Beginning.driven {cycles : Nat} (hrest : start.device.Quiescent) (hword : cycles < Word32.size)
    (hslow : ∀ operation, (schedule.program .fetch)[0]? = some operation →
      cycles ≤ workCycles start.device.duration operation) : Driven (Beginning schedule start cycles) := by
  have htallied := Live.driven.with (Recorded.Tallied schedule start)
    (fun hlive h htick => h.tick hrest hlive.1 htick) fun h => h.accept _
  exact htallied.with (Slow start cycles) (fun h hkept htick => hkept.tick hrest hword hslow h.1.1 h.2 htick)
    fun h => h.accept _

/-- What is pushed in the first pass with the stages on. -/
theorem Session.Primed.fill_pushes {started filled : Recorded} {cycles : Nat}
    (hrunnable : Runnable schedule steps start)
    (hlong : ∀ stage, (schedule.program stage).length = (start.device.stages.get stage).depth + 1)
    (hword : cycles < Word32.size) (hslow : ∀ operation, (schedule.program .fetch)[0]? = some operation →
      cycles ≤ workCycles start.device.duration operation)
    (h : Session.Primed schedule start feed started) (hbegun : Beginning schedule start cycles feed.backlog started)
    (hfill : feed.fill started = .ok (fed, filled)) :
    feed.allPushed = false ∧ fed.allPushed = true ∧ Beginning schedule start cycles fed.backlog filled ∧
      countedCycles filled.trail ≤ countedCycles started.trail + 12 := by
  have hone (stage : Stage) : (feed.tokens.get stage).length = 1 ∧ (feed.commands.get stage).length = 1 := by
    obtain ⟨htokens, hcommands⟩ := h.left stage
    rw [hlong, Nat.add_sub_cancel_left] at htokens hcommands
    exact ⟨htokens, hcommands⟩
  have hfew (stream : Stream) : feed.remaining stream ≤ 1 := by
    cases stream with
    | token stage => exact Nat.le_of_eq (hone stage).1
    | command stage => exact Nat.le_of_eq (hone stage).2
  obtain ⟨visited, hvisit, rfl⟩ := Feed.fill_eq_ok_iff.mp hfill
  obtain ⟨hkept, -, hpushed, hcounted⟩ := Live.visitStreams_pushes hrunnable hlong
    (Beginning.driven hrunnable.off.quiescent hword hslow) (fun h => h.1.1) hbegun hfew hvisit
  refine ⟨?_, ?_, hkept, hcounted⟩
  · rw [Bool.eq_false_iff, Ne, h.allPushed]
    intro hshort
    have hlength := hshort .result
    rw [hlong] at hlength
    exact Nat.not_succ_le_self _ hlength
  · change visited.allPushed = true
    rw [Feed.allPushed_iff_left]
    intro stream
    rw [← List.length_eq_zero_iff, Feed.length_left]
    exact hpushed stream (Stream.mem_all stream)

/-- A run whose programs are longer than the queues by one operation asks for the operations of the result stage when
fourteen cycles were counted. If the first fetch takes as many and there are 2^32 results, the register overflows. -/
theorem Runnable.streamThrough_overflows (hrunnable : Runnable schedule steps start) {options : Options}
    (surroundings : Surroundings) (hoptions : ∀ reading phase, options.stop? reading phase = none)
    (hlong : ∀ stage, (schedule.program stage).length = (start.device.stages.get stage).depth + 1)
    (hcrowd : Word32.size ≤ schedule.result.length)
    (hslow : ∀ operation, (schedule.program .fetch)[0]? = some operation →
      14 ≤ workCycles start.device.duration operation) (patience : Nat) :
    Session.streamThrough options surroundings (patience + 1) schedule start = .error .overflow := by
  have hrest := hrunnable.off.quiescent
  obtain ⟨feed, started, hstart, hlive, -⟩ := hrunnable.start_total
  obtain ⟨_, _, hprimed, hprimes⟩ := Session.start_primed schedule hrunnable.off
  obtain ⟨rfl, rfl⟩ := Prod.mk.inj (Except.ok.inj (hstart.symm.trans hprimed))
  obtain ⟨⟨-, htallied⟩, hcounted⟩ := Session.start_tallied hrunnable.off hstart
  have hbegun : Beginning schedule start 14 feed.backlog started := by
    refine ⟨⟨hlive, htallied⟩, fun _ => ?_⟩
    exact hprimes.reached.doneSince_eq_zero schedule.program_staged hrest hprimes.untouched .fetch
  obtain ⟨⟨fed, filled⟩, hfill⟩ := Live.driven.fill_total (fun h => h.tick_total hrunnable) hlive
  obtain ⟨hleft, hpushed, hfilled, hfilledCounted⟩ :=
    hprimes.fill_pushes hrunnable hlong (by decide) hslow hbegun hfill
  obtain ⟨polled, htick⟩ := hfilled.1.1.tick_total hrunnable
  have hpolled := (Beginning.driven hrest (by decide) hslow).tick hfilled htick
  have hfetch : start.device.doneSince polled.device .fetch = 0 := by
    refine hpolled.2 ?_
    rw [Recorded.tick_counted htick]
    split <;> omega
  have hoverflow : (polled.device.stages.get .result).outstanding = .error .overflow := by
    rw [hpolled.1.1.1.outstanding_eq hrest ((Feed.allPushed_iff fed).mp hpushed)
      (hpolled.1.1.1.result_eq_zero hrest hfetch)]
    exact if_neg (Nat.not_lt.mpr hcrowd)
  have hawait (asked : Nat) :
      Session.awaitResult options surroundings (patience + 1) asked filled = .error .overflow := by
    rw [Session.awaitResult, Recorded.outstanding_eq_error htick hoverflow]
    rfl
  have hfeed : Session.feedAll options surroundings (patience + 1) 0 feed started = .ok (.done, 1, fed, filled) := by
    rw [Session.feedAll, if_neg (by rw [hleft]; exact Bool.false_ne_true), hoptions]
    exact bind_eq_ok_iff.mpr ⟨_, hfill, Session.feedAll_allPushed hpushed⟩
  rw [Session.streamThrough, hstart]
  change Session.work options surroundings (patience + 1) feed started >>= _ = _
  rw [Session.work, hfeed]
  change Session.awaitResult options surroundings (patience + 1) 1 filled >>= _ = _
  rw [hawait]
  rfl

end Starting

namespace Layout

variable {layout : Layout} {output step bytes : Nat} {addresses : PerOperand Nat}
  {blocks : PerOperand (Option FetchBlock)} {start middle last : Residency}

/-- A step that knows nothing of its slot transfers a tile of each operand. -/
theorem StepWritten.bytes_of_unknown (h : layout.StepWritten output step addresses blocks start middle last bytes)
    (hplan : TilePlan.ofGemm layout.geometry layout.gemm = .ok layout.plan)
    (hsmall : ∀ operand, ∃ bytes, (layout.gemm.operand operand).bytes = .ok bytes ∧ bytes < Word32.size)
    (hunknown : ∀ operand, start.known operand (layout.stepSlot output step) = none) : bytes = layout.pairBytes := by
  have htile (operand : Operand) :
      (blocks.get operand).elim 0 FetchBlock.bytes = (layout.plan.operand operand).tileBytes := by
    obtain ⟨operandBytes, hbytes, hlt⟩ := hsmall operand
    rcases (h.known operand).2 with ⟨block, hblock, -⟩ | ⟨-, hknown⟩
    · obtain ⟨-, hblockBytes, -, hcount⟩ :=
        fetchBlock_eq (TilePlan.ofGemm_cuts hplan) hbytes hlt (h.fetchBlock hblock)
      rw [hblock, TilePlan.ofGemm_tileBytes hplan]
      change block.blockBytes * block.blockCount = _
      rw [hblockBytes, hcount, Nat.mul_comm]
    · rw [hunknown] at hknown
      cases hknown
  exact (FetchCommand.bytes_eq_ok_iff.mp h.bytes).2.trans (congrArg₂ (· + ·) (htile .lhs) (htile .rhs))

/-- The first fetch of a schedule that takes nothing for granted brings in a tile of each operand. -/
theorem ScheduleWritten.first_fetch {schedule : Schedule} {bandPairs : Nat} {steps : List Step}
    {results : List (Instruction ResultCommand)}
    (h : layout.ScheduleWritten schedule start last bandPairs steps results)
    (hplan : TilePlan.ofGemm layout.geometry layout.gemm = .ok layout.plan)
    (hsmall : ∀ operand, ∃ bytes, (layout.gemm.operand operand).bytes = .ok bytes ∧ bytes < Word32.size)
    (hunknown : ∀ operand slot, start.known operand slot = none) {operation : Operation}
    (hfirst : (schedule.program .fetch)[0]? = some operation) :
    ∃ command, operation.command = .fetch command ∧ command.bytes = .ok layout.pairBytes := by
  rw [Schedule.program, h.fetch, List.map_map, List.getElem?_map, Option.map_eq_some_iff] at hfirst
  obtain ⟨written, hwritten, rfl⟩ := hfirst
  obtain ⟨hpositive, rfl⟩ := List.getElem?_eq_some_iff.mp hwritten
  obtain ⟨before, hzero, -, hlink, -⟩ := h.trackers
  obtain ⟨addresses, blocks, middle, bytes, hstep, -, hlinked⟩ := hlink 0 hpositive
  rw [hzero] at hstep
  obtain rfl := hstep.bytes_of_unknown hplan hsmall fun operand => hunknown operand _
  refine ⟨_, rfl, ?_⟩
  rw [hlinked]
  exact hstep.bytes

end Layout

/-- A run has no way out if the result stage has 2^32 operations at once when it is first asked: nothing is known to be
on chip, each output tile takes one step, the queues lack one entry for all steps, and the first fetch takes fourteen
cycles. -/
theorem run_overflows {device : Device} {watch : Watch} (hused : device.Used) (hhistory : History device watch)
    (hmoves : ∀ stage, (watch.session.device.stages.get stage).stalled = false)
    (htimeout : watch.session.options.timeout = none) (hcancel : watch.session.options.cancellable = false)
    (hroom : watch.session.HasRoom)
    (hoperands : ∀ operand, (watch.session.buffers.operand operand).bytes < Word32.size)
    (hunknown : ∀ operand slot, watch.session.residency.known operand slot = none)
    (hsteps : watch.session.layout.nest.stepCount = 1)
    (hlong : watch.session.layout.nest.outputCount = watch.session.geometry.queueEntries + 1)
    (hcrowd : Word32.size ≤ watch.session.layout.nest.outputCount)
    (hslow : 13 * watch.session.geometry.readBytes < watch.session.layout.pairBytes) {patience : Nat}
    (hpatience : 0 < patience) (surroundings : Surroundings) :
    watch.session.run patience surroundings = .error .overflow := by
  have hsound := hhistory.sound
  obtain ⟨schedule, residency, hschedule⟩ := hsound.nextSchedule_total hused hroom
  obtain ⟨bandPairs, steps, results, hwritten⟩ := Layout.schedule_written hschedule
  have hrunnable := hsound.runnable hused hroom hmoves hschedule
  have hresults : schedule.result.length = watch.session.layout.nest.outputCount := hwritten.result_length
  have hrotates := hwritten.rotates
  rw [hsteps] at hrotates
  have hlength (stage : Stage) : (schedule.program stage).length =
      (watch.recorded.device.stages.get stage).depth + 1 := by
    have hdepth : (watch.recorded.device.stages.get stage).depth = watch.session.geometry.queueEntries :=
      hsound.queues hused stage
    rw [hdepth, ← hlong, ← hresults]
    cases stage with
    | fetch => rw [schedule.program_fetch_length, hrotates.fetch_length, hrotates.execute_length, Nat.mul_one]
    | execute => rw [schedule.program_execute_length, hrotates.execute_length, Nat.mul_one]
    | result => exact schedule.program_result_length
  have hfirst (operation : Operation) (hoperation : (schedule.program .fetch)[0]? = some operation) :
      14 ≤ workCycles watch.recorded.device.duration operation := by
    obtain ⟨command, hcommand, hbytes⟩ := hwritten.first_fetch (Session.planFor_eq_ok hsound.placed.plan).1
      (fun operand => ⟨_, hsound.placed.operand operand, hoperands operand⟩) hunknown hoperation
    have hduration : watch.recorded.device.duration operation = .ok ((watch.session.layout.pairBytes +
        watch.session.geometry.readBytes - 1) / watch.session.geometry.readBytes) := by
      rw [Device.duration, hcommand, ← hhistory.geometry]
      exact bind_eq_ok_iff.mpr ⟨_, hbytes, rfl⟩
    have hpos : 0 < watch.session.geometry.readBytes := Nat.lt_of_lt_of_le Nat.one_pos (Nat.le_max_right _ _)
    rw [workCycles_eq hduration]
    refine Nat.le_trans ?_ (Nat.le_max_left _ _)
    rw [Nat.le_div_iff_mul_le hpos]
    omega
  obtain ⟨patience, rfl⟩ := Nat.exists_eq_add_one_of_ne_zero (Nat.ne_of_gt hpatience)
  have hstream := hrunnable.streamThrough_overflows surroundings (Options.stop?_eq_none htimeout hcancel) hlength
    (hresults ▸ hcrowd) hfirst patience
  rw [watch.run_of_schedule hschedule, hstream]
  rfl

/-- Two operands of 65536 rows of 512 columns. -/
def vastGemm : Gemm := ⟨⟨65536, 65536, 512, 512, 1, false⟩, ⟨65536, 65536, 512, 512, 1, false⟩⟩

/-- An array of one row and one column whose memories hold a row of an operand in each slot, with queues as deep as a
word can say. -/
def vastGeometry : Geometry := { Geometry.reference with
  queueEntries := 0xffffffff
  commonDim := 512
  lhsDim := 1
  rhsDim := 1
  lhsEntries := 2
  rhsEntries := 2 }

def vastTiling : Tiling := ⟨1, 64, 1, 1, 64, 1, 64, 1, 65536, 65536, .hardware⟩

def vastPlan : TilePlan := ⟨vastTiling, vastTiling, 1, 1, 1⟩

def vastBuffers : Buffers :=
  ⟨⟨0x10000000, 0x400000⟩, ⟨0x10400000, 0x400000⟩, ⟨0x10800000, 0x400000000⟩⟩

/-- A device with that array and room for the product. -/
def vastDevice : Device := (Device.ofGeometry vastGeometry).withCapacity 0x800000000

theorem vastPlan_planned : TilePlan.ofGemm vastGeometry vastGemm = .ok vastPlan :=
  toOption_eq_some_iff.mp (by decide +kernel)

def vastLayout : Layout := ⟨vastGeometry, vastGemm, vastPlan, vastBuffers.addresses⟩

/-- The session that begins on this device. -/
def vastSession (memory : Memory) : Session where
  device := ({ vastDevice.countTick.countTick with memory } : Device).reset
  geometry := vastGeometry
  clock := vastDevice.clock
  gemm := vastGemm
  plan := vastPlan
  buffers := vastBuffers
  residency := .fresh
  options := ⟨none, false⟩
  runs := 0

/-- The schedule of the product is too long to be written down here, but nothing stops it. -/
theorem vastPlan_tried : Session.planFor vastGeometry vastGemm = .ok vastPlan := by
  have hbytes (operand : Operand) : (vastGemm.operand operand).bytes = .ok 0x400000 := by
    cases operand <;> exact toOption_eq_some_iff.mp (by decide +kernel)
  have hresult : vastGemm.resultBytes = .ok 0x400000000 := toOption_eq_some_iff.mp (by decide +kernel)
  have haligned : (Layout.mk vastGeometry vastGemm vastPlan ⟨0, 0, 0⟩).Aligned := by
    refine ⟨?_, Nat.dvd_zero _, ?_, .inl rfl, ?_, ?_⟩
    · rintro (_ | _) <;> exact Nat.dvd_zero _
    · rintro (_ | _) <;> decide
    · rintro (_ | _) <;> exact .inr (by decide)
    · rintro (_ | _) <;> exact .inl rfl
  obtain ⟨written, hwritten⟩ := @Layout.schedule_total ⟨vastGeometry, vastGemm, vastPlan, ⟨0, 0, 0⟩⟩ vastPlan_planned
    ⟨fun operand => ⟨_, hbytes operand, by cases operand <;> decide⟩, _, hresult, by decide⟩ .fresh
    ⟨⟨by decide, by decide⟩, by decide⟩ rfl haligned
  have hcheck : vastGeometry.check = .ok () := toOption_eq_some_iff.mp (by decide +kernel)
  exact bind_eq_ok_iff.mpr ⟨_, hcheck, bind_eq_ok_iff.mpr ⟨_, vastPlan_planned, bind_eq_ok_iff.mpr ⟨_, hwritten, rfl⟩⟩⟩

theorem vastSession_attached :
    ∃ memory, Session.attach vastDevice vastGemm ⟨none, false⟩ = .ok (.attached (vastSession memory)) := by
  obtain ⟨after, hbuffers⟩ : ∃ after,
      Session.allocateBuffers vastDevice.countTick.countTick vastGemm = .ok (.ok vastBuffers, after) := ⟨_, rfl⟩
  have hdisabled : vastDevice.enabled = .all false := rfl
  have hattach := Session.attach_of_disabled hdisabled rfl vastPlan_tried hbuffers ⟨none, false⟩
  obtain ⟨memory, rfl⟩ := (Session.allocateBuffers_eq_ok hbuffers).1
  exact ⟨memory, hattach⟩

/-- Its run fetches 2^39 bytes at most and writes 2^34. -/
theorem vastLayout_traffic {schedule : Schedule} {last : Residency}
    (h : vastLayout.schedule .fresh = .ok (schedule, last)) :
    schedule.traffic.fetchBytes ≤ 0x8000000000 ∧ schedule.traffic.writeBytes = 0x400000000 := by
  obtain ⟨bandPairs, steps, results, hwritten⟩ := Layout.schedule_written h
  have hfetch : vastLayout.allSteps * vastLayout.pairBytes = 0x8000000000 := by decide
  have hwrite : vastLayout.nest.outputCount * (Word32.low vastLayout.plan.rhs.tileRows *
      (Word32.low vastLayout.plan.lhs.tileRows * elementBytes)) = 0x400000000 := by decide
  exact ⟨hfetch ▸ hwritten.fetchBytes_le vastPlan_planned, hwrite ▸ hwritten.writeBytes_tiles⟩

theorem vastSession_hasRoom (memory : Memory) : (vastSession memory).HasRoom := by
  have hcounts : vastLayout.Counts .fresh := ⟨by decide, by decide⟩
  refine ⟨hcounts, fun schedule residency hschedule => ?_, fun schedule residency hschedule => ?_⟩
  · have hfetch := (vastLayout_traffic hschedule).1
    change 0 + schedule.traffic.fetchBytes < 2 ^ 64
    omega
  · have hwrite := (vastLayout_traffic hschedule).2
    change 0 + schedule.traffic.writeBytes < 2 ^ 64
    omega

/-- A run of this product has no way out: all 2^32 operations of its result stage are pushed before the first fetch is
done, one of them in flight and as many queued as the queue can hold. -/
theorem vast_run_overflows :
    ∃ session, Session.attach vastDevice vastGemm ⟨none, false⟩ = .ok (.attached session) ∧
      (∀ stage, (session.device.stages.get stage).stalled = false) ∧ session.HasRoom ∧
      ∀ patience surroundings, 0 < patience → session.run patience surroundings = .error .overflow := by
  obtain ⟨memory, hattach⟩ := vastSession_attached
  have hused : vastDevice.Used := .store (.made vastGeometry expectedSignature defaultClock) (.made 0x800000000)
  have hmoves (stage : Stage) : ((vastSession memory).device.stages.get stage).stalled = false := by
    cases stage <;> rfl
  have hroom := vastSession_hasRoom memory
  refine ⟨_, hattach, hmoves, hroom, fun patience surroundings hpatience => ?_⟩
  have hoperands (operand : Operand) : (vastBuffers.operand operand).bytes < Word32.size := by
    cases operand <;> decide
  have hlong : vastLayout.nest.outputCount = vastGeometry.queueEntries + 1 := by decide
  have hcrowd : Word32.size ≤ vastLayout.nest.outputCount := by decide
  have hslow : 13 * vastGeometry.readBytes < vastLayout.pairBytes := by decide
  exact run_overflows hused (.attach hattach) hmoves rfl rfl hroom hoperands
    Residency.known_fresh rfl hlong hcrowd hslow hpatience surroundings

end BitSerial
