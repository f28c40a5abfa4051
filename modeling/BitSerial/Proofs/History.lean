import BitSerial.Proofs.Streaming
import BitSerial.Proofs.Traffic
import BitSerial.Proofs.Viewing

/-! # Histories of a session

A session is watched from the moment it attaches to a device: what happens to the device is recorded, and so are the
bytes that each operand was last given. A history is any sequence of what a host can do with a session. Asking for the
schedule of the next run changes nothing and needs no step of its own, and clearing an operand is replacing it by zeros,
by `History.clearOperand`.

Whatever the history, the device is at rest between the steps, the buffers lie apart in memory, and they hold what the
operands were last given.
-/

namespace BitSerial

open Session (RunEnd)

theorem settle_eq_ok_iff {α : Type} {outcome : Except Failure α} {value : α} :
    Failure.settle outcome = .ok (.ok value) ↔ outcome = .ok value := by
  unfold Failure.settle
  split <;> simp

/-- The bytes in the buffer of an operand. -/
def Session.content (session : Session) (operand : Operand) : List UInt8 :=
  session.device.memory.bytesFrom (session.buffers.operand operand).address (session.buffers.operand operand).bytes

/-- A session that is watched. -/
structure Watch where
  session : Session
  /-- What happened to the device since the session began. -/
  trail : List Event
  /-- The bytes that each operand was last given. -/
  installed : PerOperand (List UInt8)

namespace Watch

/-- A session that has just begun. -/
def begin (session : Session) : Watch := ⟨session, [], ⟨session.content .lhs, session.content .rhs⟩⟩

variable (watch : Watch)

/-- The device with what happened to it. -/
def recorded : Recorded := ⟨watch.session.device, watch.trail⟩

/-- A run with its device recorded. -/
def run (patience : Nat) (surroundings : Surroundings) : Except Fault (RunEnd × Watch) := do
  match ← Failure.settle watch.session.nextSchedule with
  | .error reason => return (.refused reason, watch)
  | .ok (schedule, residency) =>
    let (ended, recorded) ←
      Session.streamThrough watch.session.options surroundings patience schedule watch.recorded
    let (ended, session) := ({ watch.session with residency } : Session).conclude schedule ended recorded.device
    return (ended, { watch with session, trail := recorded.trail })

/-- Replaces an operand. -/
def setOperand (operand : Operand) (packed : Packed) : Except Fault (Except Refusal Unit × Watch) := do
  let (answer, session) ← watch.session.setOperand operand packed
  match answer with
  | .ok () => return (.ok (), { watch with session, installed := watch.installed.set packed.bytes operand })
  | .error reason => return (.error reason, { watch with session })

/-- Resets the device and forgets what is on chip. -/
def reset : Watch :=
  { watch with session := watch.session.reset, trail := watch.trail ++ [.reset watch.session.device] }

/-- Watching makes no difference to a run. -/
theorem run_session (patience : Nat) (surroundings : Surroundings) :
    (watch.run patience surroundings).map (fun (ended, after) => (ended, after.session)) =
      watch.session.run patience surroundings := by
  unfold run Session.run
  cases Failure.settle watch.session.nextSchedule with
  | error cause => rfl
  | ok outcome =>
    cases outcome with
    | error reason => rfl
    | ok written =>
      obtain ⟨schedule, residency⟩ := written
      change (Session.streamThrough watch.session.options surroundings patience schedule watch.recorded >>= _).map _ =
        Session.streamThrough watch.session.options surroundings patience schedule watch.recorded.device >>= _
      exact map_bind_eq (Recorded.view_device.streamThrough _ _ _ _ _) fun _ => rfl

/-- A run whose schedule can be written comes to whatever streaming it comes to. -/
theorem run_of_schedule {schedule : Schedule} {residency : Residency}
    (h : watch.session.nextSchedule = .ok (schedule, residency)) (patience : Nat) (surroundings : Surroundings) :
    watch.session.run patience surroundings =
      (Session.streamThrough watch.session.options surroundings patience schedule watch.recorded).map
        fun (ended, last) => ({ watch.session with residency } : Session).conclude schedule ended last.device := by
  rw [← watch.run_session, run, settle_eq_ok_iff.mpr h]
  change (Session.streamThrough watch.session.options surroundings patience schedule watch.recorded >>= _).map _ = _
  cases Session.streamThrough watch.session.options surroundings patience schedule watch.recorded with
  | error cause => rfl
  | ok streamed => rfl

/-- What a run consists of. -/
theorem run_eq_ok_iff {watch after : Watch} {patience : Nat} {surroundings : Surroundings} {ended : RunEnd} :
    watch.run patience surroundings = .ok (ended, after) ↔
      (∃ reason, Failure.settle watch.session.nextSchedule = .ok (.error reason) ∧ ended = .refused reason ∧
        after = watch) ∨
      ∃ schedule residency streamEnd last, watch.session.nextSchedule = .ok (schedule, residency) ∧
        Session.streamThrough watch.session.options surroundings patience schedule watch.recorded =
          .ok (streamEnd, last) ∧
        (ended, after.session) =
          ({ watch.session with residency } : Session).conclude schedule streamEnd last.device ∧
        after.trail = last.trail ∧ after.installed = watch.installed := by
  unfold run
  simp only [bind_eq_ok_iff]
  constructor
  · rintro ⟨outcome, hsettle, h⟩
    cases outcome with
    | error reason =>
      simp only [pure_eq_ok_iff, Prod.mk.injEq] at h
      exact .inl ⟨reason, hsettle, h.1, h.2⟩
    | ok written =>
      obtain ⟨schedule, residency⟩ := written
      simp only [bind_eq_ok_iff, pure_eq_ok_iff, Prod.exists, Prod.mk.injEq] at h
      obtain ⟨streamEnd, last, hstream, rfl, rfl⟩ := h
      exact .inr ⟨schedule, residency, streamEnd, last, settle_eq_ok_iff.mp hsettle, hstream, rfl, rfl, rfl⟩
  · rintro (⟨reason, hsettle, rfl, rfl⟩ |
      ⟨schedule, residency, streamEnd, last, hnext, hstream, hend, htrail, hinstalled⟩)
    · exact ⟨_, hsettle, rfl⟩
    · refine ⟨_, settle_eq_ok_iff.mpr hnext, ?_⟩
      simp only [bind_eq_ok_iff, pure_eq_ok_iff, Prod.exists, Prod.mk.injEq]
      refine ⟨streamEnd, last, hstream, congrArg Prod.fst hend, ?_⟩
      cases after
      simp only at hend htrail hinstalled
      rw [htrail, hinstalled, ← congrArg Prod.snd hend]

end Watch

/-- What a session can come to after it attached to a device. -/
inductive History (device : Device) : Watch → Prop where
  | attach {gemm : Gemm} {options : Options} {session : Session}
      (h : Session.attach device gemm options = .ok (.attached session)) : History device (.begin session)
  | run {watch after : Watch} {patience : Nat} {surroundings : Surroundings} {ended : RunEnd}
      (h : History device watch) (hrun : watch.run patience surroundings = .ok (ended, after))
      (hended : ended ≠ .unfinished) : History device after
  | setOperand {watch after : Watch} {operand : Operand} {packed : Packed} {answer : Except Refusal Unit}
      (h : History device watch) (hset : watch.setOperand operand packed = .ok (answer, after)) : History device after
  | readResult {watch : Watch} {length : Nat} {answer : Except Refusal (List Int)} {session : Session}
      (h : History device watch) (hread : watch.session.readResult length = .ok (answer, session)) :
      History device { watch with session }
  | reset {watch : Watch} (h : History device watch) : History device watch.reset
  | stall {watch : Watch} (h : History device watch) (stage : Stage) (stalled : Bool) :
      History device
        { watch with session := { watch.session with device := watch.session.device.stall stage stalled } }
  | configure {watch : Watch} (h : History device watch) (options : Options) :
      History device { watch with session := { watch.session with options } }

/-- Clearing an operand is a step of a history as well: it replaces the operand by zeros. -/
theorem History.clearOperand {device : Device} {watch : Watch} (h : History device watch) {operand : Operand}
    {shape : OperandShape} {answer : Except Refusal Unit} {session : Session}
    (hclear : watch.session.clearOperand operand shape = .ok (answer, session)) :
    ∃ after, after.session = session ∧ History device after := by
  rw [Session.clearOperand_eq] at hclear
  obtain ⟨packed, -, hset⟩ := bind_eq_ok_iff.mp hclear
  cases answer with
  | ok done => exact ⟨_, rfl, .setOperand h (bind_eq_ok_iff.mpr ⟨_, hset, rfl⟩)⟩
  | error reason => exact ⟨_, rfl, .setOperand h (bind_eq_ok_iff.mpr ⟨_, hset, rfl⟩)⟩

/-- A product that was planned for a device, and how its buffers lie in memory. -/
structure Placed (device : Device) (geometry : Geometry) (gemm : Gemm) (plan : TilePlan) (buffers : Buffers) :
    Prop where
  array : geometry = device.geometry
  plan : Session.planFor geometry gemm = .ok plan
  operand : ∀ operand, (gemm.operand operand).bytes = .ok (buffers.operand operand).bytes
  result : gemm.resultBytes = .ok buffers.result.bytes
  lhs_rhs : buffers.lhs.address + buffers.lhs.bytes ≤ buffers.rhs.address
  rhs_result : buffers.rhs.address + buffers.rhs.bytes ≤ buffers.result.address
  result_end : buffers.result.address + buffers.result.bytes < Word64.size
  result_le : buffers.result.bytes ≤ device.memory.capacity
  aligned : device.memory.next % addressAlign = 0 →
    (∀ operand, (buffers.operand operand).address % addressAlign = 0) ∧ buffers.result.address % addressAlign = 0

/-- What holds of a watched session at any time. -/
structure Watch.Sound (device : Device) (watch : Watch) : Prop where
  placed : Placed device watch.session.geometry watch.session.gemm watch.session.plan watch.session.buffers
  off : watch.session.device.Off
  depth : ∀ stage, (watch.session.device.stages.get stage).depth = (device.stages.get stage).depth
  content : ∀ operand, watch.session.content operand = watch.installed.get operand

theorem Packed.length_bytes (packed : Packed) : packed.bytes.length = packed.words.length * wordBytes := by
  unfold Packed.bytes
  induction packed.words with
  | nil => rfl
  | cons word rest ih =>
    rw [List.flatMap_cons, List.length_append, ih, List.length_cons, Nat.succ_mul, Nat.add_comm]
    rfl

namespace Session

variable {session after : Session}

/-- Replacing an operand is refused and changes nothing, or its words are copied to its buffer and its tiles are
forgotten. -/
theorem setOperand_eq_ok {operand : Operand} {packed : Packed} {answer : Except Refusal Unit}
    (h : session.setOperand operand packed = .ok (answer, after)) :
    (∃ reason, answer = .error reason) ∧ after = session ∨
      answer = .ok () ∧ packed.shape = session.gemm.operand operand ∧
        (session.gemm.operand operand).words = .ok packed.words.length ∧
        ∃ memory, session.device.memory.write (session.buffers.operand operand).address packed.bytes = .ok memory ∧
          after = { session with
            device := { session.device with memory }
            residency := session.residency.invalidate operand } := by
  simp only [setOperand] at h
  split at h
  next =>
    cases h
    exact .inl ⟨⟨_, rfl⟩, rfl⟩
  next hshape =>
    simp only [bind_eq_ok_iff] at h
    obtain ⟨needed, hneeded, h⟩ := h
    split at h
    next =>
      cases h
      exact .inl ⟨⟨_, rfl⟩, rfl⟩
    next hwords =>
      simp only [Device.copyIn, bind_eq_ok_iff, pure_eq_ok_iff, Prod.exists, Prod.mk.injEq] at h
      obtain ⟨copied, device, ⟨_, memory, hcopy, rfl, rfl⟩, h⟩ := h
      rcases Memory.copyIn_eq_ok hcopy with ⟨rfl, hwrite⟩ | ⟨⟨defect, rfl⟩, rfl⟩
      · cases h
        exact .inr ⟨rfl, not_not.mp hshape, not_not.mp hwords ▸ hneeded, memory, hwrite, rfl⟩
      · cases h
        exact .inl ⟨⟨_, rfl⟩, rfl⟩

/-- Reading the result changes nothing but the count of bytes that the host read. -/
theorem readResult_frame {length : Nat} {answer : Except Refusal (List Int)}
    (h : session.readResult length = .ok (answer, after)) :
    ∃ bytesRead, after = { session with
      device := { session.device with memory := { session.device.memory with bytesRead } } } := by
  simp only [readResult, bind_eq_ok_iff] at h
  obtain ⟨_, _, _, _, h⟩ := h
  split at h
  next =>
    cases h
    exact ⟨session.device.memory.bytesRead, rfl⟩
  next =>
    simp only [Device.copyOut, bind_eq_ok_iff, pure_eq_ok_iff, Prod.exists, Prod.mk.injEq] at h
    obtain ⟨_, _, copied, device, ⟨_, memory, hcopy, rfl, rfl⟩, h⟩ := h
    obtain ⟨bytesRead, rfl⟩ := Memory.copyOut_frame hcopy
    split at h
    next =>
      cases h
      exact ⟨bytesRead, rfl⟩
    next =>
      cases h
      exact ⟨bytesRead, rfl⟩

/-- What cutting the buffers of a product can lead to, buffer by buffer. Those that were cut before one is refused are
released. -/
inductive CutsBuffers (device : Device) (gemm : Gemm) : Except MemoryDefect Buffers → Device → Prop where
  | noLhs {bytes : Nat} {defect : MemoryDefect} (hbytes : gemm.lhs.bytes = .ok bytes)
      (hrefused : device.memory.allocate bytes = .ok (.error defect, device.memory)) :
      CutsBuffers device gemm (.error defect) device
  | noRhs {lhsBytes bytes : Nat} {lhs : Buffer} {first : Memory} {defect : MemoryDefect}
      (hlhsBytes : gemm.lhs.bytes = .ok lhsBytes) (hlhs : device.memory.allocate lhsBytes = .ok (.ok lhs, first))
      (hbytes : gemm.rhs.bytes = .ok bytes) (hrefused : first.allocate bytes = .ok (.error defect, first)) :
      CutsBuffers device gemm (.error defect) { device with memory := first.free lhs.address }
  | noResult {lhsBytes rhsBytes bytes : Nat} {lhs rhs : Buffer} {first second : Memory} {defect : MemoryDefect}
      (hlhsBytes : gemm.lhs.bytes = .ok lhsBytes) (hlhs : device.memory.allocate lhsBytes = .ok (.ok lhs, first))
      (hrhsBytes : gemm.rhs.bytes = .ok rhsBytes) (hrhs : first.allocate rhsBytes = .ok (.ok rhs, second))
      (hbytes : gemm.resultBytes = .ok bytes) (hrefused : second.allocate bytes = .ok (.error defect, second)) :
      CutsBuffers device gemm (.error defect) { device with memory := (second.free lhs.address).free rhs.address }
  | cut {lhsBytes rhsBytes resultBytes : Nat} {lhs rhs result : Buffer} {first second third : Memory}
      (hlhsBytes : gemm.lhs.bytes = .ok lhsBytes) (hlhs : device.memory.allocate lhsBytes = .ok (.ok lhs, first))
      (hrhsBytes : gemm.rhs.bytes = .ok rhsBytes) (hrhs : first.allocate rhsBytes = .ok (.ok rhs, second))
      (hresultBytes : gemm.resultBytes = .ok resultBytes)
      (hresult : second.allocate resultBytes = .ok (.ok result, third)) :
      CutsBuffers device gemm (.ok ⟨lhs, rhs, result⟩) { device with memory := third }

theorem allocateBuffers_cuts {device after : Device} {gemm : Gemm} {answer : Except MemoryDefect Buffers}
    (h : allocateBuffers device gemm = .ok (answer, after)) : CutsBuffers device gemm answer after := by
  simp only [allocateBuffers, Device.allocate, bind_eq_ok_iff, pure_eq_ok_iff, Prod.exists, Prod.mk.injEq] at h
  obtain ⟨lhsBytes, hlhsBytes, lhs, _, ⟨_, first, hlhs, rfl, rfl⟩, h⟩ := h
  cases lhs with
  | error defect =>
    cases h
    obtain rfl := Memory.allocate_eq_refused hlhs
    exact .noLhs hlhsBytes hlhs
  | ok lhs =>
    simp only [bind_eq_ok_iff, pure_eq_ok_iff, Prod.exists, Prod.mk.injEq] at h
    obtain ⟨rhsBytes, hrhsBytes, rhs, _, ⟨_, second, hrhs, rfl, rfl⟩, h⟩ := h
    cases rhs with
    | error defect =>
      cases h
      obtain rfl := Memory.allocate_eq_refused hrhs
      exact .noRhs hlhsBytes hlhs hrhsBytes hrhs
    | ok rhs =>
      simp only [bind_eq_ok_iff, pure_eq_ok_iff, Prod.exists, Prod.mk.injEq] at h
      obtain ⟨resultBytes, hresultBytes, result, _, ⟨_, third, hresult, rfl, rfl⟩, h⟩ := h
      cases result with
      | error defect =>
        cases h
        obtain rfl := Memory.allocate_eq_refused hresult
        exact .noResult hlhsBytes hlhs hrhsBytes hrhs hresultBytes hresult
      | ok result =>
        cases h
        exact .cut hlhsBytes hlhs hrhsBytes hrhs hresultBytes hresult

/-- The buffers of a product are cut one after the other. -/
theorem allocateBuffers_eq_ok {device after : Device} {gemm : Gemm} {buffers : Buffers}
    (h : allocateBuffers device gemm = .ok (.ok buffers, after)) :
    (∃ memory, after = { device with memory }) ∧
      ((∀ operand, (gemm.operand operand).bytes = .ok (buffers.operand operand).bytes) ∧
        gemm.resultBytes = .ok buffers.result.bytes) ∧
      (buffers.lhs.address + buffers.lhs.bytes ≤ buffers.rhs.address ∧
        buffers.rhs.address + buffers.rhs.bytes ≤ buffers.result.address ∧
        buffers.result.address + buffers.result.bytes < Word64.size ∧
        buffers.result.bytes ≤ device.memory.capacity) ∧
      (device.memory.next % addressAlign = 0 →
        (∀ operand, (buffers.operand operand).address % addressAlign = 0) ∧
          buffers.result.address % addressAlign = 0) := by
  cases allocateBuffers_cuts h with
  | cut hlhsBytes hlhs hrhsBytes hrhs hresultBytes hresult =>
    obtain ⟨rfl, lhsSize, hlhsSize, _, hlhsAligned, _, _, rfl⟩ := Memory.allocate_eq_ok hlhs
    obtain ⟨rfl, rhsSize, hrhsSize, _, hrhsAligned, _, _, rfl⟩ := Memory.allocate_eq_ok hrhs
    obtain ⟨rfl, resultSize, hresultSize, _, _, hresultRoom, hresultEnd, rfl⟩ := Memory.allocate_eq_ok hresult
    dsimp only at hrhs hresult hresultRoom hresultEnd ⊢
    refine ⟨⟨_, rfl⟩, ⟨?_, hresultBytes⟩, ⟨by omega, by omega, by omega, by omega⟩, fun haligned => ?_⟩
    · rintro (_ | _)
      · exact hlhsBytes
      · exact hrhsBytes
    · unfold addressAlign at *
      refine ⟨?_, by omega⟩
      rintro (_ | _)
      · exact haligned
      · change (device.memory.next + lhsSize) % 64 = 0
        omega

/-- What attaching can lead to, check by check. The signature and the geometry are read with a cycle each. -/
inductive Attaches (device : Device) (gemm : Gemm) (options : Options) : Attachment → Prop where
  | foreign {signed : Device} (hsigned : device.tick = .ok signed) (hforeign : signed.signature ≠ expectedSignature) :
      Attaches device gemm options (.failed (.deviceNotReady expectedSignature signed.signature) signed)
  | unplanned {signed described : Device} {reason : Refusal} (hsigned : device.tick = .ok signed)
      (hdescribed : signed.tick = .ok described)
      (hplan : Failure.settle (planFor described.geometry gemm) = .ok (.error reason)) :
      Attaches device gemm options (.failed reason described)
  | crowded {signed described after : Device} {defect : MemoryDefect} (hsigned : device.tick = .ok signed)
      (hdescribed : signed.tick = .ok described)
      (hallocate : allocateBuffers described gemm = .ok (.error defect, after)) :
      Attaches device gemm options (.failed (.deviceMemory defect) after)
  | attached {signed described after : Device} {plan : TilePlan} {buffers : Buffers}
      (hsigned : device.tick = .ok signed) (hdescribed : signed.tick = .ok described)
      (hplan : planFor described.geometry gemm = .ok plan)
      (hallocate : allocateBuffers described gemm = .ok (.ok buffers, after)) :
      Attaches device gemm options (.attached {
        device := after.reset
        geometry := described.geometry
        clock := described.clock
        gemm, plan, buffers
        residency := .fresh
        options
        runs := 0 })

theorem attach_attaches {device : Device} {gemm : Gemm} {options : Options} {attachment : Attachment}
    (h : attach device gemm options = .ok attachment) : Attaches device gemm options attachment := by
  simp only [attach, Device.readSignature, bind_eq_ok_iff, pure_eq_ok_iff, Prod.exists, Prod.mk.injEq] at h
  obtain ⟨_, _, ⟨signed, hsigned, rfl, rfl⟩, h⟩ := h
  split at h
  next hforeign =>
    cases h
    exact .foreign hsigned hforeign
  next =>
    simp only [Device.readGeometry, bind_eq_ok_iff, pure_eq_ok_iff, Prod.exists, Prod.mk.injEq] at h
    obtain ⟨_, _, ⟨described, hdescribed, rfl, rfl⟩, outcome, hplan, h⟩ := h
    cases outcome with
    | error reason =>
      cases h
      exact .unplanned hsigned hdescribed hplan
    | ok plan =>
      simp only [bind_eq_ok_iff, Prod.exists] at h
      obtain ⟨allocated, after, hallocate, h⟩ := h
      cases allocated with
      | error defect =>
        cases h
        exact .crowded hsigned hdescribed hallocate
      | ok buffers =>
        cases h
        exact .attached hsigned hdescribed (settle_eq_ok_iff.mp hplan) hallocate

/-- A session begins on a device whose stages are off if a schedule can be tried and the buffers can be cut. -/
theorem attach_of_disabled {device after : Device} (hdisabled : device.enabled = .all false)
    (hsignature : device.signature = expectedSignature) {gemm : Gemm} {plan : TilePlan}
    (hplan : planFor device.geometry gemm = .ok plan) {buffers : Buffers}
    (hbuffers : allocateBuffers device.countTick.countTick gemm = .ok (.ok buffers, after)) (options : Options) :
    attach device gemm options = .ok (.attached {
      device := after.reset
      geometry := device.geometry
      clock := device.clock
      gemm, plan, buffers
      residency := .fresh
      options
      runs := 0 }) := by
  refine bind_eq_ok_iff.mpr ⟨_, bind_eq_ok_iff.mpr ⟨_, device.tick_of_disabled hdisabled, rfl⟩, ?_⟩
  refine (if_neg (not_not_intro hsignature)).trans (bind_eq_ok_iff.mpr ⟨_,
    bind_eq_ok_iff.mpr ⟨_, device.countTick.tick_of_disabled hdisabled, rfl⟩, ?_⟩)
  refine bind_eq_ok_iff.mpr ⟨_, settle_eq_ok_iff.mpr hplan, ?_⟩
  exact bind_eq_ok_iff.mpr ⟨_, hbuffers, rfl⟩

/-- A session begins on a device that was reset, with its buffers one after the other in memory. -/
theorem attach_eq_ok {device : Device} {gemm : Gemm} {options : Options}
    (h : attach device gemm options = .ok (.attached session)) :
    Placed device session.geometry session.gemm session.plan session.buffers ∧ session.device.Off ∧
      ∀ stage, (session.device.stages.get stage).depth = (device.stages.get stage).depth := by
  cases attach_attaches h with
  | attached hsigned hdescribed hplan hallocate =>
    -- the two accesses before are cycles, which do not move the window of memory
    have hkept {first second : Device} (htick : first.tick = .ok second) :
        second.geometry = first.geometry ∧ second.memory.capacity = first.memory.capacity ∧
          second.memory.next = first.memory.next ∧
          ∀ stage, (second.stages.get stage).depth = (first.stages.get stage).depth := by
      refine first.tick_keeps (fun current => current.geometry = first.geometry ∧
        current.memory.capacity = first.memory.capacity ∧ current.memory.next = first.memory.next ∧
          ∀ stage, (current.stages.get stage).depth = (first.stages.get stage).depth)
        (fun _ h => h) (fun _ _ _ h hturn => ?_) ⟨rfl, rfl, rfl, fun _ => rfl⟩ htick
      have hwindow := hturn.settled.window
      exact ⟨hturn.switches.2.2.trans h.1, hwindow.1.trans h.2.1, hwindow.2.trans h.2.2.1,
        fun stage => (hturn.frame stage).1.trans (h.2.2.2 stage)⟩
    obtain ⟨hgeometry, hcapacity, hnext, hdepth⟩ := hkept hsigned
    obtain ⟨hgeometry', hcapacity', hnext', hdepth'⟩ := hkept hdescribed
    obtain ⟨⟨memory, rfl⟩, ⟨hoperand, hresult⟩, ⟨hlhs, hrhs, hend, hle⟩, haligned⟩ :=
      allocateBuffers_eq_ok hallocate
    rw [hcapacity', hcapacity] at hle
    rw [hnext', hnext] at haligned
    refine ⟨⟨hgeometry'.trans hgeometry, hplan, hoperand, hresult, hlhs, hrhs, hend, hle, haligned⟩,
      Device.reset_off _, fun stage => ?_⟩
    rw [Device.reset, PerStage.get_map]
    exact (hdepth' stage).trans (hdepth stage)

end Session

/-- An operand that is refused changes nothing; one that is taken lies in memory, and no tile of the one before it is
known any more. -/
theorem Watch.setOperand_eq_ok {watch after : Watch} {operand : Operand} {packed : Packed}
    {answer : Except Refusal Unit} (h : watch.setOperand operand packed = .ok (answer, after)) :
    after = watch ∨
      (watch.session.gemm.operand operand).words = .ok packed.words.length ∧
        ∃ memory, watch.session.device.memory.write (watch.session.buffers.operand operand).address packed.bytes =
            .ok memory ∧
          after = { watch with
            session := { watch.session with
              device := { watch.session.device with memory }
              residency := watch.session.residency.invalidate operand }
            installed := watch.installed.set packed.bytes operand } := by
  simp only [setOperand, bind_eq_ok_iff, Prod.exists] at h
  obtain ⟨found, session, hsession, h⟩ := h
  rcases Session.setOperand_eq_ok hsession with ⟨⟨reason, rfl⟩, rfl⟩ | ⟨rfl, _, hwords, memory, hwrite, rfl⟩
  · cases h
    exact .inl rfl
  · cases h
    exact .inr ⟨hwords, memory, hwrite, rfl⟩

theorem Session.planFor_eq_ok {geometry : Geometry} {gemm : Gemm} {plan : TilePlan}
    (h : planFor geometry gemm = .ok plan) :
    TilePlan.ofGemm geometry gemm = .ok plan ∧
      ∃ written, (Layout.mk geometry gemm plan ⟨0, 0, 0⟩).schedule .fresh = .ok written := by
  simp only [planFor, bind_eq_ok_iff, pure_eq_ok_iff] at h
  obtain ⟨_, _, _, hplan, written, hwritten, rfl⟩ := h
  exact ⟨hplan, written, hwritten⟩

namespace Placed

variable {device : Device} {geometry : Geometry} {gemm : Gemm} {plan : TilePlan} {buffers : Buffers}

theorem cuts (h : Placed device geometry gemm plan buffers) : plan.Cuts geometry gemm :=
  TilePlan.ofGemm_cuts (Session.planFor_eq_ok h.plan).1

/-- The buffers of the operands end where the result begins, or before. -/
theorem operand_end (h : Placed device geometry gemm plan buffers) (operand : Operand) :
    (buffers.operand operand).address + (buffers.operand operand).bytes ≤ buffers.result.address := by
  have := h.lhs_rhs
  have := h.rhs_result
  cases operand with
  | lhs => change buffers.lhs.address + buffers.lhs.bytes ≤ _; omega
  | rhs => exact h.rhs_result

/-- The buffers of the two operands lie apart. -/
theorem operand_apart (h : Placed device geometry gemm plan buffers) {operand other : Operand} (hne : other ≠ operand) :
    (buffers.operand other).address + (buffers.operand other).bytes ≤ (buffers.operand operand).address ∨
      (buffers.operand operand).address + (buffers.operand operand).bytes ≤ (buffers.operand other).address := by
  have := h.lhs_rhs
  cases operand <;> cases other
  · exact absurd rfl hne
  · exact .inr this
  · exact .inl this
  · exact absurd rfl hne

end Placed

namespace Watch.Sound

variable {device : Device} {watch after : Watch}

/-- A schedule that is streamed leaves the buffers of the operands alone. -/
theorem content_reached (h : watch.Sound device) {schedule : Schedule} {residency : Residency}
    (hschedule : watch.session.nextSchedule = .ok (schedule, residency)) {left : Backlog} {recorded : Recorded}
    (hreached : Reached schedule.program watch.recorded left recorded) (operand : Operand) :
    recorded.device.memory.bytesFrom (watch.session.buffers.operand operand).address
      (watch.session.buffers.operand operand).bytes = watch.session.content operand := by
  obtain ⟨bandPairs, steps, results, hwritten⟩ := Layout.schedule_written hschedule
  apply List.map_congr_left
  intro offset hoffset
  have hoffset := List.mem_range.mp hoffset
  have hend := h.placed.operand_end operand
  refine hreached.byte schedule.program_staged h.off.quiescent fun operation hoperation hwrites => ?_
  have hwithin : watch.session.buffers.result.address ≤ _ ∧ _ :=
    hwritten.writes_within h.placed.cuts h.placed.result hoperation hwrites
  omega

theorem run (h : watch.Sound device) {patience : Nat} {surroundings : Surroundings} {ended : RunEnd}
    (hrun : watch.run patience surroundings = .ok (ended, after)) (hended : ended ≠ .unfinished) :
    after.Sound device := by
  rcases Watch.run_eq_ok_iff.mp hrun with ⟨_, _, _, rfl⟩ |
    ⟨schedule, residency, streamEnd, last, hschedule, hstream, hend, _, hinstalled⟩
  · exact h
  · obtain ⟨left, reached, hreached, hlast⟩ := Reached.streamThrough hstream
    have hcontent := h.content_reached hschedule hreached
    have hdepth := fun stage => ((hreached.ledger schedule.program_staged h.off.quiescent).stages stage).2
    obtain ⟨bandPairs, steps, results, hwritten⟩ := Layout.schedule_written hschedule
    cases streamEnd with
    | finished counters =>
      obtain ⟨_, hoff⟩ := streamThrough_finished hwritten.rotates h.off.quiescent hstream
      obtain ⟨-, hsession⟩ := Prod.mk.inj hend
      subst hlast
      refine ⟨hsession ▸ h.placed, hsession ▸ hoff, ?_, ?_⟩
      · exact hsession ▸ fun stage => (hdepth stage).trans (h.depth stage)
      · rw [hinstalled, hsession]
        exact fun operand => (hcontent operand).trans (h.content operand)
    | stopped reason =>
      obtain ⟨-, hsession⟩ := Prod.mk.inj hend
      subst hlast
      refine ⟨hsession ▸ h.placed, hsession ▸ reached.device.reset_off, ?_, ?_⟩
      · rw [hsession]
        exact fun stage => (reached.device.reset_depth stage).trans ((hdepth stage).trans (h.depth stage))
      · rw [hinstalled, hsession]
        exact fun operand => (hcontent operand).trans (h.content operand)
    | exhausted => exact absurd (Prod.mk.inj hend).1 hended

theorem setOperand (h : watch.Sound device) {operand : Operand} {packed : Packed} {answer : Except Refusal Unit}
    (hset : watch.setOperand operand packed = .ok (answer, after)) : after.Sound device := by
  rcases Watch.setOperand_eq_ok hset with rfl | ⟨hwords, memory, hwrite, rfl⟩
  · exact h
  · refine ⟨h.placed, h.off.withMemory memory, h.depth, fun other => ?_⟩
    have hlength : (watch.session.buffers.operand operand).bytes = packed.bytes.length := by
      have hbytes := h.placed.operand operand
      simp only [OperandShape.bytes, hwords, bind_eq_ok_iff, Except.ok.injEq, exists_eq_left',
        Word64.mul_eq_ok_iff] at hbytes
      rw [hbytes.2, Packed.length_bytes]
    rw [PerOperand.get_set]
    split
    next hother =>
      subst hother
      change memory.bytesFrom _ (watch.session.buffers.operand other).bytes = packed.bytes
      rw [hlength]
      exact Memory.bytesFrom_write hwrite
    next hother =>
      refine Eq.trans (Memory.bytesFrom_write_of_disjoint hwrite ?_) (h.content other)
      rw [← hlength]
      exact h.placed.operand_apart hother

end Watch.Sound

/-- Whatever was done with a session, it is sound. -/
theorem History.sound {device : Device} {watch : Watch} (h : History device watch) : watch.Sound device := by
  induction h with
  | attach h =>
    obtain ⟨hplaced, hoff, hdepth⟩ := Session.attach_eq_ok h
    refine ⟨hplaced, hoff, hdepth, ?_⟩
    rintro (_ | _) <;> rfl
  | run _ hrun hended ih => exact ih.run hrun hended
  | setOperand _ hset ih => exact ih.setOperand hset
  | readResult _ hread ih =>
    obtain ⟨bytesRead, rfl⟩ := Session.readResult_frame hread
    exact ⟨ih.placed, ih.off.withMemory _, ih.depth, ih.content⟩
  | @reset watch _ ih =>
    exact ⟨ih.placed, watch.session.device.reset_off, fun stage =>
      (watch.session.device.reset_depth stage).trans (ih.depth stage), ih.content⟩
  | @stall watch _ stage stalled ih =>
    exact ⟨ih.placed, ih.off.stall stage stalled, fun other =>
      (watch.session.device.stall_depth stage other stalled).trans (ih.depth other), ih.content⟩
  | configure _ _ ih => exact ⟨ih.placed, ih.off, ih.depth, ih.content⟩

/-- Two states of one session, which is for one product from its beginning to its end. -/
structure Session.SameProduct (session other : Session) : Prop where
  geometry : session.geometry = other.geometry
  clock : session.clock = other.clock
  gemm : session.gemm = other.gemm
  plan : session.plan = other.plan
  buffers : session.buffers = other.buffers

namespace Session.SameProduct

variable {session other last : Session} {watch after : Watch}

theorem refl (session : Session) : session.SameProduct session := ⟨rfl, rfl, rfl, rfl, rfl⟩

theorem trans (h : session.SameProduct other) (hother : other.SameProduct last) : session.SameProduct last :=
  ⟨h.geometry.trans hother.geometry, h.clock.trans hother.clock, h.gemm.trans hother.gemm, h.plan.trans hother.plan,
    h.buffers.trans hother.buffers⟩

theorem layout (h : session.SameProduct other) : session.layout = other.layout := by
  unfold Session.layout
  rw [h.geometry, h.gemm, h.plan, h.buffers]

theorem run {patience : Nat} {surroundings : Surroundings} {ended : RunEnd}
    (hrun : watch.run patience surroundings = .ok (ended, after)) : after.session.SameProduct watch.session := by
  rcases Watch.run_eq_ok_iff.mp hrun with ⟨_, _, _, rfl⟩ | ⟨_, _, streamEnd, _, _, _, hend, _, _⟩
  · exact refl _
  · rw [(Prod.mk.inj hend).2]
    cases streamEnd <;> exact ⟨rfl, rfl, rfl, rfl, rfl⟩

theorem setOperand {operand : Operand} {packed : Packed} {answer : Except Refusal Unit}
    (hset : watch.setOperand operand packed = .ok (answer, after)) : after.session.SameProduct watch.session := by
  rcases Watch.setOperand_eq_ok hset with rfl | ⟨_, memory, _, rfl⟩
  · exact refl _
  · exact ⟨rfl, rfl, rfl, rfl, rfl⟩

theorem readResult {length : Nat} {answer : Except Refusal (List Int)}
    (hread : session.readResult length = .ok (answer, last)) : last.SameProduct session := by
  obtain ⟨_, rfl⟩ := readResult_frame hread
  exact ⟨rfl, rfl, rfl, rfl, rfl⟩

end Session.SameProduct

/-- Whatever was done with a session, it is for the product that it was attached for. -/
theorem History.attached {device : Device} {watch : Watch} (h : History device watch) :
    ∃ gemm options session, Session.attach device gemm options = .ok (.attached session) ∧
      watch.session.SameProduct session := by
  induction h with
  | attach h => exact ⟨_, _, _, h, .refl _⟩
  | run _ hrun _ ih =>
    obtain ⟨_, _, _, hattach, hsame⟩ := ih
    exact ⟨_, _, _, hattach, (Session.SameProduct.run hrun).trans hsame⟩
  | setOperand _ hset ih =>
    obtain ⟨_, _, _, hattach, hsame⟩ := ih
    exact ⟨_, _, _, hattach, (Session.SameProduct.setOperand hset).trans hsame⟩
  | readResult _ hread ih =>
    obtain ⟨_, _, _, hattach, hsame⟩ := ih
    exact ⟨_, _, _, hattach, (Session.SameProduct.readResult hread).trans hsame⟩
  | reset _ ih =>
    obtain ⟨_, _, _, hattach, hsame⟩ := ih
    exact ⟨_, _, _, hattach, ⟨hsame.geometry, hsame.clock, hsame.gemm, hsame.plan, hsame.buffers⟩⟩
  | stall _ _ _ ih =>
    obtain ⟨_, _, _, hattach, hsame⟩ := ih
    exact ⟨_, _, _, hattach, ⟨hsame.geometry, hsame.clock, hsame.gemm, hsame.plan, hsame.buffers⟩⟩
  | configure _ _ ih =>
    obtain ⟨_, _, _, hattach, hsame⟩ := ih
    exact ⟨_, _, _, hattach, ⟨hsame.geometry, hsame.clock, hsame.gemm, hsame.plan, hsame.buffers⟩⟩

/-- The array under a session stays the one that it was planned for. -/
theorem History.geometry {device : Device} {watch : Watch} (h : History device watch) :
    watch.session.device.geometry = watch.session.geometry := by
  induction h with
  | attach h =>
    cases Session.attach_attaches h with
    | attached _ _ _ hallocate =>
      obtain ⟨⟨_, rfl⟩, _⟩ := Session.allocateBuffers_eq_ok hallocate
      rfl
  | run _ hrun _ ih =>
    rcases Watch.run_eq_ok_iff.mp hrun with ⟨_, _, _, rfl⟩ |
      ⟨schedule, residency, streamEnd, last, _, hstream, hend, _, _⟩
    · exact ih
    · obtain ⟨left, reached, hreached, rfl⟩ := Reached.streamThrough hstream
      rw [(Prod.mk.inj hend).2]
      cases streamEnd <;> exact hreached.geometry.trans ih
  | setOperand _ hset ih =>
    rcases Watch.setOperand_eq_ok hset with rfl | ⟨_, memory, _, rfl⟩
    · exact ih
    · exact ih
  | readResult _ hread ih =>
    obtain ⟨_, rfl⟩ := Session.readResult_frame hread
    exact ih
  | reset _ ih => exact ih
  | stall _ _ _ ih => exact ih
  | configure _ _ ih => exact ih

end BitSerial
