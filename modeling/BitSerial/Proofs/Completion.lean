import BitSerial.Proofs.History

/-! # A run that came through

What a host learns from a successful run is what happened: the device did the instructions of the schedule, each stage
in order, it moved the bytes that the schedule announced, and it is at rest again.
-/

namespace BitSerial

open Session (RunEnd)

/-- The number of instructions of a schedule on all stages. -/
def Schedule.count (schedule : Schedule) : Nat :=
  schedule.counts.fetch + schedule.counts.execute + schedule.counts.result

theorem Schedule.tokenCount_eq (schedule : Schedule) :
    (Backlog.ofPrograms schedule.program).tokenCount = schedule.count := by
  simp [Backlog.tokenCount, Backlog.ofPrograms, Schedule.count, Schedule.counts, Schedule.program]

theorem Schedule.commandCount_eq (schedule : Schedule) :
    (Backlog.ofPrograms schedule.program).commandCount = schedule.count := by
  simp [Backlog.commandCount, Backlog.ofPrograms, Schedule.count, Schedule.counts, Schedule.program]

theorem Backlog.Empty.tokenCount {left : Backlog} (h : left.Empty) : left.tokenCount = 0 := by
  simp [Backlog.tokenCount, (h _).1]

theorem Backlog.Empty.commandCount {left : Backlog} (h : left.Empty) : left.commandCount = 0 := by
  simp [Backlog.commandCount, (h _).2]

/-- A device at rest to which nothing is left to push has finished all that was streamed through it. -/
theorem Streamed.finished {schedule : Schedule} {start last : Recorded} (hrest : start.device.Quiescent)
    (h : Streamed schedule start last) (stage : Stage) :
    finishedOf stage last.trail = finishedOf stage start.trail ++ schedule.program stage := by
  obtain ⟨⟨left, hreached, hempty⟩, hoff⟩ := h
  have hlane := (hreached.flow schedule.program_staged hrest).lane stage
  have htokens := hlane.tokens_eq
  rw [(hempty stage).1, hoff.quiescent.tokens stage, hoff.quiescent.activity stage, List.append_nil, eq_comm,
    List.map_eq_nil_iff, List.drop_eq_nil_iff] at htokens
  rw [hreached.finished schedule.program_staged hrest stage, hoff.quiescent.activity stage]
  exact congrArg _ (List.take_of_length_le htokens)

/-- What a successful run of a schedule did and left behind. -/
structure RanThrough (schedule : Schedule) (before after : Watch) (report : Report) : Prop where
  /-- Each stage finished the instructions of its program, in order and nothing else. -/
  finished : ∀ stage, finishedOf stage after.trail = finishedOf stage before.trail ++ schedule.program stage
  overflows : ∀ stage, (after.session.device.stages.get stage).overflows =
    (before.session.device.stages.get stage).overflows
  tokensPushed : after.session.device.statistics.tokensPushed =
    before.session.device.statistics.tokensPushed + schedule.count
  commandsPushed : after.session.device.statistics.commandsPushed =
    before.session.device.statistics.commandsPushed + schedule.count
  bytesRead : after.session.device.statistics.bytesRead =
    before.session.device.statistics.bytesRead + schedule.traffic.fetchBytes
  bytesWritten : after.session.device.statistics.bytesWritten =
    before.session.device.statistics.bytesWritten + schedule.traffic.writeBytes
  memoryWritten : after.session.device.memory.bytesWritten =
    before.session.device.memory.bytesWritten + schedule.traffic.writeBytes
  /-- The bytes to be written are those of the padded result. -/
  result : before.session.gemm.resultBytes = .ok schedule.traffic.writeBytes
  traffic : report.traffic = schedule.traffic
  instructions : report.instructions = schedule.counts
  /-- All queues are empty, no operation is in flight, all regions are free, and stages and counting are off. -/
  off : after.session.device.Off

/-- A successful run does exactly the schedule that was asked for before it. -/
theorem run_executes_schedule {device : Device} {watch : Watch} (hhistory : History device watch)
    (hcapacity : device.memory.capacity < Word32.size) {patience : Nat} {surroundings : Surroundings}
    {report : Report} {session : Session}
    (hrun : watch.session.run patience surroundings = .ok (.finished report, session)) :
    ∃ schedule residency after, watch.session.nextSchedule = .ok (schedule, residency) ∧
      watch.run patience surroundings = .ok (.finished report, after) ∧ after.session = session ∧
      RanThrough schedule watch after report := by
  have hsound := hhistory.sound
  rw [← watch.run_session, map_eq_ok_iff] at hrun
  obtain ⟨⟨ended, after⟩, hrun, heq⟩ := hrun
  obtain ⟨rfl, rfl⟩ := Prod.mk.inj heq
  rcases Watch.run_eq_ok_iff.mp hrun with ⟨_, _, h, _⟩ |
    ⟨schedule, residency, streamEnd, last, hschedule, hstream, hend, htrail, _⟩
  · cases h
  · refine ⟨schedule, residency, after, hschedule, hrun, rfl, ?_⟩
    obtain ⟨bandPairs, steps, results, hwritten⟩ := Layout.schedule_written hschedule
    have hresult := hwritten.writeBytes_eq_resultBytes hsound.placed.cuts hsound.placed.result
      (Nat.lt_of_le_of_lt hsound.placed.result_le hcapacity)
    cases streamEnd with
    | stopped reason => cases (Prod.mk.inj hend).1
    | exhausted => cases (Prod.mk.inj hend).1
    | finished counters =>
      obtain ⟨hreport, hsession⟩ := Prod.mk.inj hend
      have hstreamed := streamThrough_finished hwritten.rotates hsound.off.quiescent hstream
      have hfinished := hstreamed.finished hsound.off.quiescent
      obtain ⟨⟨left, hreached, hempty⟩, hoff⟩ := hstreamed
      have hledger := hreached.ledger schedule.program_staged hsound.off.quiescent
      have hdevice : after.session.device = last.device := by rw [hsession]
      have hread := hledger.bytesRead
      have hwrite := hledger.bytesWritten
      have hmemory := hledger.memoryWritten
      have htokens := hledger.tokensPushed
      have hcommands := hledger.commandsPushed
      rw [hfinished, moved_append, ← hwritten.fetchBytes_eq] at hread
      rw [hfinished, moved_append, ← hwritten.writeBytes_eq] at hwrite hmemory
      rw [hempty.tokenCount, schedule.tokenCount_eq] at htokens
      rw [hempty.commandCount, schedule.commandCount_eq] at hcommands
      simp only [Watch.recorded] at hread hwrite hmemory htokens hcommands
      injection hreport with hreport
      constructor
      case finished => exact fun stage => htrail ▸ hfinished stage
      case overflows => exact fun stage => hdevice ▸ (hledger.stages stage).1
      case tokensPushed => rw [hdevice]; omega
      case commandsPushed => rw [hdevice]; omega
      case bytesRead => rw [hdevice]; omega
      case bytesWritten => rw [hdevice]; omega
      case memoryWritten => rw [hdevice]; omega
      case result => rw [hresult]; exact hsound.placed.result
      case traffic => rw [hreport]
      case instructions => rw [hreport]
      case off => exact hdevice ▸ hoff

/-- A product of three steps. -/
def smallGemm : Gemm := ⟨⟨8, 8, 512, 512, 3, false⟩, ⟨8, 8, 512, 512, 1, false⟩⟩

/-- The session that an attachment led to. -/
def Session.Attachment.session? : Session.Attachment → Option Session
  | .attached session => some session
  | .failed _ _ => none

theorem Session.Attachment.eq_attached {attachment : Session.Attachment} {session : Session}
    (h : attachment.session? = some session) : attachment = .attached session := by
  cases attachment with
  | attached found => rw [Option.some.inj h]
  | failed reason device => cases h

/-- The report of a run that came through. -/
def Session.RunEnd.report? : Session.RunEnd → Option Report
  | .finished report => some report
  | .refused _ => none
  | .unfinished => none

theorem Session.RunEnd.eq_finished {ended : Session.RunEnd} {report : Report} (h : ended.report? = some report) :
    ended = .finished report := by
  cases ended with
  | finished found => rw [Option.some.inj h]
  | refused reason => cases h
  | unfinished => cases h

/-- A session for the small product on the reference device. -/
def smallSession : Option Session :=
  (Session.attach (.ofGeometry .reference) smallGemm ⟨none, false⟩).toOption.bind (·.session?)

theorem smallSession_attached {session : Session} (h : smallSession = some session) :
    Session.attach (.ofGeometry .reference) smallGemm ⟨none, false⟩ = .ok (.attached session) := by
  obtain ⟨attachment, hattach, hsession⟩ := Option.bind_eq_some_iff.mp h
  rw [← Session.Attachment.eq_attached hsession]
  exact toOption_eq_some_iff.mp hattach

theorem smallSession_gemm {session : Session} (h : smallSession = some session) : session.gemm = smallGemm := by
  cases Session.attach_attaches (smallSession_attached h) with
  | attached => rfl

/-- A first run of the small product comes through. -/
theorem smallSession_runs :
    ∃ session report after, smallSession = some session ∧
      (Watch.begin session).run 1000 (.still false) = .ok (.finished report, after) := by
  have hruns : (smallSession.bind fun session => ((Watch.begin session).run 1000 (.still false)).toOption.bind
      fun outcome => outcome.1.report?.map fun _ => ()) = some () := by
    decide +kernel
  obtain ⟨session, hsession, hruns⟩ := Option.bind_eq_some_iff.mp hruns
  obtain ⟨⟨ended, after⟩, houtcome, hruns⟩ := Option.bind_eq_some_iff.mp hruns
  obtain ⟨report, hreport, _⟩ := Option.map_eq_some_iff.mp hruns
  obtain rfl : ended = _ := Session.RunEnd.eq_finished hreport
  exact ⟨session, report, after, hsession, toOption_eq_some_iff.mp houtcome⟩

/-- The first run of the small product fetches five tiles of 512 bytes: the right tile of the third step is still there
from the first one. -/
theorem run_executes_schedule_small :
    ∃ session report schedule after, History (.ofGeometry .reference) (.begin session) ∧
      (Watch.begin session).run 1000 (.still false) = .ok (.finished report, after) ∧
      report.traffic = ⟨2560, 256⟩ ∧ RanThrough schedule (.begin session) after report := by
  have htraffic : smallSession.bind (fun session => (session.run 1000 (.still false)).toOption.bind fun outcome =>
      outcome.1.report?.map (·.traffic)) = some ⟨2560, 256⟩ := by
    decide +kernel
  obtain ⟨session, hsession, htraffic⟩ := Option.bind_eq_some_iff.mp htraffic
  obtain ⟨⟨ended, after⟩, houtcome, htraffic⟩ := Option.bind_eq_some_iff.mp htraffic
  obtain ⟨report, hreport, htraffic⟩ := Option.map_eq_some_iff.mp htraffic
  have hrun : session.run 1000 (.still false) = .ok (.finished report, after) := by
    rw [← Session.RunEnd.eq_finished hreport]
    exact toOption_eq_some_iff.mp houtcome
  have hhistory : History (.ofGeometry .reference) (.begin session) :=
    .attach (smallSession_attached hsession)
  obtain ⟨schedule, _, last, _, hlast, _, hran⟩ := run_executes_schedule hhistory (by decide) hrun
  exact ⟨session, report, schedule, last, hhistory, hlast, htraffic, hran⟩

end BitSerial
