import BitSerial.Proofs.Rebuilding
import BitSerial.Proofs.Timing

/-! # Runs that repeat

The first run of a session brings on chip what it needs, and every later one begins where the first one ended: it
follows the same schedule and takes the same time. Whether it fetches anything is decided by the loop nest alone.
-/

namespace BitSerial

open Session (RunEnd)

/-- Runs one after the other, each with its patience and surroundings. -/
def Session.runAll : List (Nat × Surroundings) → Session → Except Fault (List RunEnd × Session)
  | [], session => .ok ([], session)
  | (patience, surroundings) :: rest, session => do
    let (ended, session) ← session.run patience surroundings
    let (ends, session) ← runAll rest session
    return (ended :: ends, session)

namespace Watch

variable {device : Device} {watch other after otherAfter : Watch} {patience otherPatience : Nat}
  {surroundings otherSurroundings : Surroundings} {report otherReport : Report}

/-- Every run of a session can be watched. -/
theorem run_of_session {session : Session} {ended : RunEnd}
    (h : watch.session.run patience surroundings = .ok (ended, session)) :
    ∃ after, watch.run patience surroundings = .ok (ended, after) ∧ after.session = session := by
  rw [← watch.run_session, map_eq_ok_iff] at h
  obtain ⟨⟨_, after⟩, hrun, heq⟩ := h
  obtain ⟨rfl, rfl⟩ := Prod.mk.inj heq
  exact ⟨after, hrun, rfl⟩

/-- What a run that came through consists of. -/
theorem run_finished (hrun : watch.run patience surroundings = .ok (.finished report, after)) :
    ∃ schedule residency counters last, watch.session.nextSchedule = .ok (schedule, residency) ∧
      Session.streamThrough watch.session.options surroundings patience schedule watch.recorded =
        .ok (.finished counters, last) ∧
      after.session = { watch.session with device := last.device, residency, runs := watch.session.runs + 1 } ∧
      report = {
        geometry := watch.session.geometry
        gemm := watch.session.gemm
        counters
        traffic := schedule.traffic
        clock := watch.session.clock
        instructions := schedule.counts } := by
  rcases run_eq_ok_iff.mp hrun with ⟨_, _, hended, _⟩ |
    ⟨schedule, residency, streamEnd, last, hschedule, hstream, hend, _, _⟩
  · cases hended
  · cases streamEnd with
    | finished counters =>
      obtain ⟨hended, hsession⟩ := Prod.mk.inj hend
      exact ⟨schedule, residency, counters, last, hschedule, hstream, hsession, RunEnd.finished.inj hended⟩
    | stopped reason => cases (Prod.mk.inj hend).1
    | exhausted => cases (Prod.mk.inj hend).1

/-- Two sessions whose next runs do the same. -/
structure Alike (watch other : Watch) : Prop where
  layout : watch.session.layout = other.session.layout
  clock : watch.session.clock = other.session.clock
  tiles : watch.session.residency.tiles = other.session.residency.tiles
  device : watch.session.device.Alike false other.session.device

theorem Sound.alike (h : watch.Sound device) : watch.Alike watch :=
  ⟨rfl, rfl, rfl, h.off.alike h.off rfl (fun _ => rfl) fun _ => rfl⟩

/-- Runs that begin alike follow the same schedule and report the same. -/
theorem Alike.report_eq (h : watch.Alike other)
    (hrun : watch.run patience surroundings = .ok (.finished report, after))
    (hother : other.run otherPatience otherSurroundings = .ok (.finished otherReport, otherAfter)) :
    report = otherReport := by
  obtain ⟨schedule, residency, counters, last, hschedule, hstream, _, rfl⟩ := run_finished hrun
  obtain ⟨otherSchedule, _, otherCounters, _, hotherSchedule, hotherStream, _, rfl⟩ := run_finished hother
  have hlayout := h.layout
  unfold Session.nextSchedule at hschedule hotherSchedule
  rw [← hlayout] at hotherSchedule
  obtain ⟨rfl, _⟩ := Layout.schedule_unique h.tiles hschedule hotherSchedule
  have halike : watch.recorded.Alike false other.recorded := h.device
  obtain rfl := halike.streamThrough patience otherPatience schedule _ _ hstream hotherStream _ _ rfl rfl
  have hgeometry : watch.session.geometry = other.session.geometry := congrArg Layout.geometry hlayout
  have hgemm : watch.session.gemm = other.session.gemm := congrArg Layout.gemm hlayout
  rw [hgeometry, hgemm, h.clock]

/-- A run that leaves known what was known before it leaves everything as it was for the next one. -/
theorem Sound.alike_of_tiles (hsound : watch.Sound device)
    (hrun : watch.run patience surroundings = .ok (.finished report, after))
    (htiles : after.session.residency.tiles = watch.session.residency.tiles) : after.Alike watch := by
  have hoff := (hsound.run hrun nofun).off
  obtain ⟨schedule, residency, counters, last, _, hstream, hsession, _⟩ := run_finished hrun
  have hkept := Device.Kept.streamThrough hstream
  have hdevice : after.session.device = last.device := by rw [hsession]
  rw [← hdevice] at hkept
  refine ⟨?_, ?_, htiles, hoff.alike hsound.off hkept.geometry hkept.depth hkept.stalled⟩
  · rw [hsession]
    rfl
  · rw [hsession]

/-- A state of a session in which nothing changes any more: every schedule leaves known what was known before it. -/
def Settled (watch : Watch) : Prop :=
  ∀ again schedule residency, again.tiles = watch.session.residency.tiles →
    watch.session.layout.schedule again = .ok (schedule, residency) →
    residency.tiles = watch.session.residency.tiles

/-- One run is enough to settle a session. -/
theorem settled_of_run (hrun : watch.run patience surroundings = .ok (.finished report, after)) : after.Settled := by
  obtain ⟨schedule, residency, counters, last, hschedule, _, hsession, _⟩ := run_finished hrun
  unfold Settled
  rw [hsession]
  intro again next settled hagain hnext
  exact Layout.schedule_settled hschedule hagain hnext

/-- Runs of a settled session all report the same. -/
theorem Settled.runAll (hsettled : watch.Settled)
    (hrun : watch.run patience surroundings = .ok (.finished report, after)) {requests : List (Nat × Surroundings)}
    {reports : List Report} {current : Watch} {last : Session} (hsound : current.Sound device)
    (halike : current.Alike watch) (h : current.session.runAll requests = .ok (reports.map .finished, last)) :
    ∀ found ∈ reports, found = report := by
  induction requests generalizing current reports with
  | nil =>
    cases reports with
    | nil => exact nofun
    | cons first rest => cases h
  | cons request rest ih =>
    obtain ⟨patience, surroundings⟩ := request
    simp only [Session.runAll, bind_eq_ok_iff, pure_eq_ok_iff, Prod.exists, Prod.mk.injEq] at h
    obtain ⟨ended, session, hsession, ends, _, hends, hreports, rfl⟩ := h
    cases reports with
    | nil => cases hreports
    | cons first others =>
      obtain ⟨rfl, rfl⟩ := List.cons.inj hreports
      obtain ⟨next, hnext, rfl⟩ := run_of_session hsession
      have htiles : next.session.residency.tiles = current.session.residency.tiles := by
        obtain ⟨schedule, residency, _, _, hschedule, _, hsession, _⟩ := run_finished hnext
        unfold Session.nextSchedule at hschedule
        rw [halike.layout] at hschedule
        rw [hsession, halike.tiles]
        exact hsettled _ _ _ halike.tiles hschedule
      have hbefore := hsound.alike_of_tiles hnext htiles
      intro found hfound
      rcases List.mem_cons.mp hfound with rfl | hfound
      · exact halike.report_eq hnext hrun
      · refine ih (hsound.run hnext nofun) ?_ hends found hfound
        exact ⟨hbefore.layout.trans halike.layout, hbefore.clock.trans halike.clock, hbefore.tiles.trans halike.tiles,
          hbefore.device.trans halike.device⟩

/-- The runs of a session after the first one all report the same. -/
theorem Sound.runAll (hsound : watch.Sound device) {requests : List (Nat × Surroundings)} {reports : List Report}
    {last : Session} (h : watch.session.runAll requests = .ok (reports.map .finished, last)) :
    ∀ found ∈ reports.tail, ∀ other ∈ reports.tail, found = other := by
  obtain _ | ⟨⟨patience, surroundings⟩, rest⟩ := requests
  · cases reports with
    | nil => exact nofun
    | cons first others => cases h
  simp only [Session.runAll, bind_eq_ok_iff, pure_eq_ok_iff, Prod.exists, Prod.mk.injEq] at h
  obtain ⟨ended, session, hsession, ends, _, hends, hreports, rfl⟩ := h
  obtain _ | ⟨first, others⟩ := reports
  · exact nofun
  obtain ⟨rfl, rfl⟩ := List.cons.inj hreports
  obtain ⟨settled, hrun, rfl⟩ := run_of_session hsession
  obtain _ | ⟨second, later⟩ := others
  · exact nofun
  have hagain := hends
  obtain _ | ⟨⟨patience, surroundings⟩, rest⟩ := rest
  · cases hends
  simp only [Session.runAll, bind_eq_ok_iff, pure_eq_ok_iff, Prod.exists, Prod.mk.injEq] at hends
  obtain ⟨ended, session, hsession, ends, _, _, hreports, rfl⟩ := hends
  obtain ⟨rfl, rfl⟩ := List.cons.inj hreports
  obtain ⟨next, hsecond, rfl⟩ := run_of_session hsession
  have hsettled := hsound.run hrun nofun
  have hsame := (settled_of_run hrun).runAll hsecond hsettled hsettled.alike hagain
  exact fun found hfound other hother => (hsame found hfound).trans (hsame other hother).symm

end Watch

namespace Layout

variable {layout : Layout}

/-- From the second build on, a schedule fetches nothing exactly if no third step needs the slot of the first one. -/
theorem schedule_again (hcuts : layout.plan.Cuts layout.geometry layout.gemm)
    (hsmall : ∀ operand, ∃ bytes, (layout.gemm.operand operand).bytes = .ok bytes ∧ bytes < Word32.size)
    (hfollows : layout.Follows layout.addresses fun _ => 0) {first second : Schedule}
    {start settled last : Residency} (hfirst : layout.schedule start = .ok (first, settled))
    (hsecond : layout.schedule settled = .ok (second, last)) :
    second.traffic.fetchBytes = 0 ↔ layout.nest.outputCount * layout.nest.stepCount ≤ 2 := by
  obtain ⟨bandPairs, steps, results, hwritten⟩ := schedule_written hsecond
  rw [← hwritten.steps_length]
  constructor
  · intro hnothing
    by_contra hmany
    exact Nat.ne_of_gt (hwritten.fetches_of_two_lt hcuts hsmall (Nat.lt_of_not_le hmany)) hnothing
  · intro hfew
    refine hwritten.fetches_nothing hfirst rfl (fun operand output step address houtput hstep haddress => ?_) hfew
    have hidentified := (hfollows.address operand output step address houtput hstep haddress).1
    rwa [Nat.zero_add] at hidentified

/-- All schedules after the first one are the same. -/
theorem rebuild_repeats (hcuts : layout.plan.Cuts layout.geometry layout.gemm)
    (hsmall : ∀ operand, ∃ bytes, (layout.gemm.operand operand).bytes = .ok bytes ∧ bytes < Word32.size)
    (hfollows : layout.Follows layout.addresses fun _ => 0) {count : Nat} {start last : Residency}
    {schedules : List Schedule} (h : layout.rebuild count start = .ok (schedules, last)) :
    ∀ schedule ∈ schedules.tail, (∀ other ∈ schedules.tail, schedule = other) ∧
      (schedule.traffic.fetchBytes = 0 ↔ layout.nest.outputCount * layout.nest.stepCount ≤ 2) := by
  obtain _ | count := count
  · cases h
    exact fun _ hmem => absurd hmem List.not_mem_nil
  simp only [rebuild, bind_eq_ok_iff, pure_eq_ok_iff, Prod.exists, Prod.mk.injEq] at h
  obtain ⟨first, settled, hfirst, rest, _, hrest, rfl, rfl⟩ := h
  obtain _ | count := count
  · cases hrest
    exact fun _ hmem => absurd hmem List.not_mem_nil
  have hsecond := hrest
  simp only [rebuild, bind_eq_ok_iff, pure_eq_ok_iff, Prod.exists, Prod.mk.injEq] at hsecond
  obtain ⟨second, next, hsecond, _⟩ := hsecond
  have hsame := rebuild_settled hfirst hsecond rfl hrest
  intro schedule hschedule
  refine ⟨fun other hother => (hsame schedule hschedule).trans (hsame other hother).symm, ?_⟩
  rw [hsame schedule hschedule]
  exact schedule_again hcuts hsmall hfollows hfirst hsecond

end Layout

/-- Schedules that are built one after the other, from any tracker, are all the same from the second one on, and they
fetch nothing exactly if the product takes two steps at most. So are the reports of consecutive runs of a session. -/
theorem repetition_settles {layout : Layout} (hplan : TilePlan.ofGemm layout.geometry layout.gemm = .ok layout.plan)
    (hsmall : ∀ operand, ∃ bytes, (layout.gemm.operand operand).bytes = .ok bytes ∧ bytes < Word32.size)
    {unknown : Residency} (hunknown : unknown.tiles = .both (.both none)) {trial : Schedule × Residency}
    (htrial : layout.schedule unknown = .ok trial) :
    (∃ steps, layout.nest.steps = .ok steps ∧ ∀ start count,
      Settles (.fault .overflow) (¬ layout.CountsAll start count) (layout.rebuild count start) fun found =>
        found.1.length = count ∧ ∀ schedule ∈ found.1.tail,
          (∀ other ∈ found.1.tail, schedule = other) ∧ (schedule.traffic.fetchBytes = 0 ↔ steps ≤ 2)) ∧
    ∀ (device : Device) (watch : Watch), History device watch →
      ∀ (requests : List (Nat × Surroundings)) (reports : List Report) (after : Session),
        watch.session.runAll requests = .ok (reports.map .finished, after) →
          ∀ report ∈ reports.tail, ∀ other ∈ reports.tail, report = other := by
  constructor
  · have hcuts := TilePlan.ofGemm_cuts hplan
    have hfollows := Layout.follows_of_schedule hcuts hunknown htrial
    refine ⟨_, Layout.nest_steps_eq hcuts hsmall, fun start count => ?_⟩
    apply (hfollows.rebuild hunknown htrial count start).imp id
    intro found hbuilt hlength
    exact ⟨hlength, Layout.rebuild_repeats hcuts hsmall hfollows hbuilt⟩
  · intro device watch hhistory requests reports after hruns
    exact hhistory.sound.runAll hruns

/-- Runs that all have a report all came through. -/
theorem Session.RunEnd.eq_map_finished {ends : List RunEnd} {reports : List Report}
    (h : ends.mapM report? = some reports) : ends = reports.map .finished := by
  induction ends generalizing reports with
  | nil =>
    cases h
    rfl
  | cons first rest ih =>
    simp only [List.mapM_cons, Option.bind_eq_bind, Option.bind_eq_some_iff, Option.pure_def, Option.some.injEq] at h
    obtain ⟨report, hreport, others, hothers, rfl⟩ := h
    rw [List.map_cons, ← ih hothers, ← eq_finished hreport]

/-- The tiled product has 24 steps and fetches with every build. The three runs of the small product come through, and
the last two report the same. -/
theorem repetition_settles_small :
    (∃ first second third last, tiledLayout.rebuild 3 .fresh = .ok ([first, second, third], last) ∧ second = third ∧
      second.traffic.fetchBytes ≠ 0) ∧
    ∃ session first second third after, smallSession = some session ∧
      session.runAll (List.replicate 3 (1000, .still false)) =
        .ok ([first, second, third].map .finished, after) ∧ second = third := by
  have htried : (tiledLayout.schedule .fresh).toOption.isSome := by decide +kernel
  obtain ⟨trial, htrial⟩ := Option.isSome_iff_exists.mp htried
  obtain ⟨⟨steps, hsteps, hbuilds⟩, hruns⟩ := @repetition_settles tiledLayout tiledLayout_plan tiledLayout_small .fresh rfl trial
    (toOption_eq_some_iff.mp htrial)
  constructor
  · have hcount : steps = 24 := by
      have hnest : tiledLayout.nest.steps = .ok 24 := toOption_eq_some_iff.mp (by decide +kernel)
      exact Except.ok.inj (hsteps.symm.trans hnest)
    obtain ⟨⟨schedules, last⟩, hbuilt, hlength, htail⟩ :=
      (hbuilds .fresh 3).total (not_not_intro ⟨by decide, by decide⟩)
    obtain ⟨first, second, third, rfl⟩ := List.length_eq_three.mp hlength
    obtain ⟨hsame, hfetches⟩ := htail second List.mem_cons_self
    refine ⟨first, second, third, last, hbuilt, hsame third (List.mem_cons_of_mem _ List.mem_cons_self), ?_⟩
    rw [hcount] at hfetches
    exact fun hnothing => absurd (hfetches.mp hnothing) (by decide)
  · have hreports : smallSession.bind (fun session =>
        (session.runAll (List.replicate 3 (1000, .still false))).toOption.bind fun outcome =>
          outcome.1.mapM RunEnd.report? |>.map (·.length)) = some 3 := by
      decide +kernel
    obtain ⟨session, hsession, hreports⟩ := Option.bind_eq_some_iff.mp hreports
    obtain ⟨⟨ends, after⟩, hends, hreports⟩ := Option.bind_eq_some_iff.mp hreports
    obtain ⟨reports, hreports, hlength⟩ := Option.map_eq_some_iff.mp hreports
    obtain ⟨first, second, third, rfl⟩ := List.length_eq_three.mp hlength
    have hends := toOption_eq_some_iff.mp hends
    obtain rfl : ends = _ := RunEnd.eq_map_finished hreports
    have hhistory : History (.ofGeometry .reference) (.begin session) := .attach (smallSession_attached hsession)
    exact ⟨session, first, second, third, after, hsession, hends, hruns _ _ hhistory _ _ _ hends second
      List.mem_cons_self third (List.mem_cons_of_mem _ List.mem_cons_self)⟩

end BitSerial
