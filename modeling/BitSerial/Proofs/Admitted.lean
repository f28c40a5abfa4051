import BitSerial.Proofs.Completion
import BitSerial.Proofs.Stopping
import BitSerial.Proofs.Trial
import BitSerial.Proofs.Use

/-! # Sessions that were admitted

A session begins after its schedule was tried. From then on nothing that a host does with it is turned down for the
shapes of the product or the capacities of the array: whatever the tracker knows by now, the schedule of the next run
can be written.
-/

namespace BitSerial

open Session (RunEnd)

/-- A refusal for the shapes of a product or the capacities of an array. -/
def Refusal.ofPlan : Refusal → Bool
  | .unsupportedShape _ => true
  | .capabilityMismatch _ => true
  | _ => false

/-- What was checked when a session began need not be checked again. -/
structure Session.Admitted (session : Session) : Prop where
  /-- The next schedule can be written, as long as the tracker can count its tiles. -/
  schedule : (∃ schedule residency, session.nextSchedule = .ok (schedule, residency)) ∨
    session.nextSchedule = .error (.fault .overflow) ∧ ¬ session.layout.Counts session.residency
  run : ∀ patience surroundings reason after,
    session.run patience surroundings = .ok (.refused reason, after) → reason.ofPlan = false
  setOperand : ∀ operand packed reason after,
    session.setOperand operand packed = .ok (.error reason, after) → reason.ofPlan = false
  readResult : ∀ length reason after,
    session.readResult length = .ok (.error reason, after) → reason.ofPlan = false

section Loops

variable {σ : Type} [Accelerator σ] {options : Options} {surroundings : Surroundings} {patience : Nat}
  {device after : σ} {reason : Refusal}

theorem Options.stop?_ofPlan {reading : Reading} {phase : RunPhase} (h : options.stop? reading phase = some reason) :
    reason.ofPlan = false := by
  unfold stop? at h
  split at h
  · cases h
    rfl
  · split at h
    · cases h
    · split at h
      · cases h
        rfl
      · cases h

namespace Session

/-- A run that was given up was given up by the host. -/
theorem streamThrough_ofPlan {schedule : Schedule}
    (h : streamThrough options surroundings patience schedule device = .ok (.stopped reason, after)) :
    reason.ofPlan = false := by
  unfold streamThrough at h
  simp only [bind_eq_ok_iff, Prod.exists] at h
  obtain ⟨feed, started, _, ended, worked, hwork, h⟩ := h
  cases ended with
  | exhausted => cases h
  | done =>
    simp only [bind_eq_ok_iff, pure_eq_ok_iff, Prod.exists, Prod.mk.injEq] at h
    obtain ⟨_, _, _, _, _, hended, _⟩ := h
    cases hended
  | stopped found =>
    simp only [bind_eq_ok_iff, pure_eq_ok_iff, Prod.mk.injEq] at h
    obtain ⟨_, _, hended, _⟩ := h
    cases hended
    obtain ⟨point, phase, _, _, _, _, _, _, hstop, _⟩ := work_stopped hwork
    exact Options.stop?_ofPlan hstop

end Session

end Loops

namespace Session

variable {session after : Session} {reason : Refusal}

theorem setOperand_refused {operand : Operand} {packed : Packed}
    (h : session.setOperand operand packed = .ok (.error reason, after)) : reason.ofPlan = false := by
  simp only [setOperand] at h
  split at h
  · cases h
    rfl
  · obtain ⟨needed, _, h⟩ := bind_eq_ok_iff.mp h
    split at h
    · cases h
      rfl
    · obtain ⟨⟨copied, device⟩, _, h⟩ := bind_eq_ok_iff.mp h
      cases copied with
      | error defect =>
        cases h
        rfl
      | ok done => cases h

theorem readResult_refused {length : Nat} (h : session.readResult length = .ok (.error reason, after)) :
    reason.ofPlan = false := by
  unfold readResult at h
  simp only [bind_eq_ok_iff] at h
  obtain ⟨_, _, needed, _, h⟩ := h
  split at h
  · cases h
    rfl
  · simp only [bind_eq_ok_iff, Prod.exists] at h
    obtain ⟨bytes, _, copied, device, _, h⟩ := h
    cases copied with
    | error defect =>
      cases h
      rfl
    | ok raw => cases h

end Session

/-- The buffers of a session are where a schedule that was tried can be written. -/
theorem Watch.Sound.seated {device : Device} {watch : Watch} (h : watch.Sound device) (hused : device.Used) :
    watch.session.layout.Seated := by
  obtain ⟨hoperands, hresult⟩ := h.placed.aligned hused.built.2
  have hrows (operand : Operand) := (h.placed.cuts.shape operand).paddedRows_pos
  have hend := h.placed.result_end
  have haddress (operand : Operand) :
      watch.session.layout.addresses.operand operand = (watch.session.buffers.operand operand).address := by
    cases operand <;> rfl
  -- the result is not empty, so the buffers before it end before the last address
  have hpos : 0 < watch.session.buffers.result.bytes := by
    have hbytes := h.placed.result
    rw [Gemm.resultBytes_eq hbytes]
    exact Nat.mul_pos (Nat.mul_pos (hrows .lhs) (hrows .rhs)) (by decide)
  constructor
  case cuts => exact h.placed.cuts
  case operand =>
    intro operand
    have hoperand := h.placed.operand_end operand
    refine ⟨_, h.placed.operand operand, ?_⟩
    rw [haddress]
    omega
  case result => exact ⟨_, h.placed.result, hend⟩
  case aligned => exact ⟨fun operand => (haddress operand).symm ▸ hoperands operand, hresult⟩

namespace Watch.Sound

variable {device : Device} {watch : Watch}

/-- A schedule can be written from whatever is known to be on chip, as long as the tracker can count its tiles. -/
theorem schedule_settles (h : watch.Sound device) (hused : device.Used) (start : Residency) :
    Settles (.fault .overflow) (¬ watch.session.layout.Counts start) (watch.session.layout.schedule start)
      fun _ => True := by
  obtain ⟨trial, htrial⟩ := (Session.planFor_eq_ok h.placed.plan).2
  exact ((h.seated hused).follows.schedule start rfl htrial).imp id fun _ _ _ => trivial

theorem nextSchedule_settles (h : watch.Sound device) (hused : device.Used) :
    Settles (.fault .overflow) (¬ watch.session.layout.Counts watch.session.residency) watch.session.nextSchedule
      fun _ => True :=
  h.schedule_settles hused watch.session.residency

/-- A run is not turned down before it begins. -/
theorem run_refused (h : watch.Sound device) (hused : device.Used) {patience : Nat} {surroundings : Surroundings}
    {reason : Refusal} {after : Session}
    (hrun : watch.session.run patience surroundings = .ok (.refused reason, after)) : reason.ofPlan = false := by
  unfold Session.run at hrun
  rcases h.nextSchedule_settles hused with ⟨⟨schedule, residency⟩, hschedule, _⟩ | ⟨hstopped, _⟩
  · rw [hschedule] at hrun
    change Session.stream _ _ _ _ = _ at hrun
    unfold Session.stream at hrun
    obtain ⟨⟨ended, last⟩, hstream, hrun⟩ := bind_eq_ok_iff.mp hrun
    cases ended with
    | finished counters => cases hrun
    | exhausted => cases hrun
    | stopped found =>
      cases hrun
      exact Session.streamThrough_ofPlan hstream
  · rw [hstopped] at hrun
    cases hrun

end Watch.Sound

/-- Whatever was done with a session since it began, it stays admitted. -/
theorem history_admitted {device : Device} {watch : Watch} (hused : device.Used) (hhistory : History device watch) :
    watch.session.Admitted := by
  have hsound := hhistory.sound
  constructor
  case schedule =>
    rcases hsound.nextSchedule_settles hused with ⟨⟨schedule, residency⟩, hschedule, _⟩ | hstopped
    · exact .inl ⟨schedule, residency, hschedule⟩
    · exact .inr hstopped
  case run => exact fun _ _ _ _ => hsound.run_refused hused
  case setOperand => exact fun _ _ _ _ => Session.setOperand_refused
  case readResult => exact fun _ _ _ => Session.readResult_refused

/-- After its first run, the small product is still admitted. What that run left on chip spares the next one most of its
2560 bytes. -/
theorem history_admitted_small :
    ∃ session report after schedule residency, smallSession = some session ∧
      (Watch.begin session).run 1000 (.still false) = .ok (.finished report, after) ∧
      after.session.nextSchedule = .ok (schedule, residency) ∧ schedule.traffic.fetchBytes = 1024 ∧
      after.session.Admitted := by
  have hnext : (smallSession.bind fun session => ((Watch.begin session).run 1000 (.still false)).toOption.bind
      fun outcome => outcome.1.report?.bind fun _ =>
        outcome.2.session.nextSchedule.toOption.map fun written => written.1.traffic.fetchBytes) = some 1024 := by
    decide +kernel
  obtain ⟨session, hsession, hnext⟩ := Option.bind_eq_some_iff.mp hnext
  obtain ⟨⟨ended, after⟩, houtcome, hnext⟩ := Option.bind_eq_some_iff.mp hnext
  obtain ⟨report, hreport, hnext⟩ := Option.bind_eq_some_iff.mp hnext
  obtain ⟨⟨schedule, residency⟩, hschedule, hbytes⟩ := Option.map_eq_some_iff.mp hnext
  have hrun : (Watch.begin session).run 1000 (.still false) = .ok (.finished report, after) := by
    rw [← Session.RunEnd.eq_finished hreport]
    exact toOption_eq_some_iff.mp houtcome
  have hhistory : History (.ofGeometry .reference) after := .run (.attach (smallSession_attached hsession)) hrun nofun
  exact ⟨session, report, after, schedule, residency, hsession, hrun, toOption_eq_some_iff.mp hschedule, hbytes,
    history_admitted (.made .reference expectedSignature defaultClock) hhistory⟩

end BitSerial
