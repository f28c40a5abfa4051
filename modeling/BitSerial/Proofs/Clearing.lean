import BitSerial.Proofs.Attachment
import BitSerial.Proofs.Delivery

/-! # What a run does to memory

The only operations that write to memory are result instructions, and they write zeros. Those of a schedule lie in the
buffer of the result and cover it. So a run clears the output tiles whose instructions finished, which are all of them
if it came through, and leaves every other byte as it was.
-/

namespace BitSerial

open Session (RunEnd)

namespace Session

/-- What a run does to memory, and what the host reads afterwards. -/
structure Clears (session : Session) (ended : RunEnd) (after : Session) : Prop where
  size : session.gemm.resultBytes = .ok session.buffers.result.bytes
  outside : ∀ address, address < session.buffers.result.address ∨
    session.buffers.result.address + session.buffers.result.bytes ≤ address →
      after.device.memory.byte address = session.device.memory.byte address
  /-- The bytes that are written are those of the first output tiles, and they are zeros. -/
  written : after = session ∨ ∃ schedule residency done, session.nextSchedule = .ok (schedule, residency) ∧
    done <+: schedule.program .result ∧ session.device.memory.ClearedBy done after.device.memory
  cleared : ∀ report, ended = .finished report → ∀ address, session.buffers.result.address ≤ address →
    address < session.buffers.result.address + session.buffers.result.bytes → after.device.memory.byte address = 0
  read : ∀ report, ended = .finished report →
    ∃ last, after.readResult (session.gemm.lhs.rows * session.gemm.rhs.rows) =
      .ok (.ok (List.replicate (session.gemm.lhs.rows * session.gemm.rhs.rows) 0), last)
  mismatch : ∀ length, length ≠ session.gemm.lhs.rows * session.gemm.rhs.rows →
    length * elementBytes ≤ largestBlock →
    after.readResult length = .ok (.error (.operandMismatch
      (.elements length (session.gemm.lhs.rows * session.gemm.rhs.rows))), after)

theorem element_zeros {bytes : List UInt8} (h : ∀ byte ∈ bytes, byte = 0) : element bytes = 0 := by
  have hvalue : bytes.foldr (fun byte value => byte.toNat + 256 * value) 0 = 0 := by
    induction bytes with
    | nil => rfl
    | cons first rest ih =>
      rw [List.foldr_cons, ih fun byte hbyte => h byte (List.mem_cons_of_mem _ hbyte), h first List.mem_cons_self]
      rfl
  unfold element
  rw [hvalue]
  rfl

theorem elements_zeros (gemm : Gemm) {raw : List UInt8} (h : ∀ byte ∈ raw, byte = 0) :
    elements gemm raw.toArray = List.replicate (gemm.lhs.rows * gemm.rhs.rows) 0 := by
  refine List.eq_replicate_iff.mpr ⟨(length_elements gemm _).trans (Nat.mul_comm _ _), fun value hvalue => ?_⟩
  simp only [elements, List.mem_flatMap, List.mem_map, Array.toList_extract, List.extract_eq_take_drop] at hvalue
  obtain ⟨row, _, col, _, rfl⟩ := hvalue
  exact element_zeros fun byte hbyte => h byte (List.mem_of_mem_drop (List.mem_of_mem_take hbyte))

end Session

/-- Every byte of the padded result is written by some result instruction. -/
theorem Layout.ScheduleWritten.exists_writes {layout : Layout} {schedule : Schedule} {start last : Residency}
    {bandPairs bytes : Nat} {steps : List Step} {results : List (Instruction ResultCommand)}
    (h : layout.ScheduleWritten schedule start last bandPairs steps results)
    (hcuts : layout.plan.Cuts layout.geometry layout.gemm) (hbytes : layout.gemm.resultBytes = .ok bytes)
    (hsmall : bytes < Word32.size) {address : Nat} (hfrom : layout.addresses.result ≤ address)
    (hto : address < layout.addresses.result + bytes) :
    ∃ operation ∈ schedule.program .result, operation.command.Writes address := by
  have hcovered : address ∈ ⋃ element, schedule.elementRange element :=
    h.iUnion_elementRange hcuts hbytes hsmall ▸ ⟨hfrom, hto⟩
  obtain ⟨element, base, ⟨instruction, hinstruction, hrhsRow, hlhsRow, rfl⟩, hbegin, hend⟩ :=
    Set.mem_iUnion.mp hcovered
  refine ⟨_, List.mem_map_of_mem (List.mem_of_getElem? hinstruction), element.rhsRow, hrhsRow, by omega, ?_⟩
  have hwidth : (element.lhsRow + 1) * elementBytes ≤ instruction.command.rowBytes := Nat.mul_le_mul_right _ hlhsRow
  rw [Nat.succ_mul] at hwidth
  omega

namespace Watch.Sound

variable {device first : Device} {watch after : Watch} {patience : Nat} {surroundings : Surroundings} {ended : RunEnd}

/-- A run is turned down before it begins, or it clears what the first result instructions of its schedule write, and
what all of them write if it comes through. -/
theorem run_writes (h : watch.Sound device) (hrun : watch.run patience surroundings = .ok (ended, after)) :
    (after = watch ∧ ∀ report, ended ≠ .finished report) ∨
      ∃ schedule residency done, watch.session.nextSchedule = .ok (schedule, residency) ∧
        done <+: schedule.program .result ∧
        watch.session.device.memory.ClearedBy done after.session.device.memory ∧
        ∀ report, ended = .finished report → done = schedule.program .result := by
  rcases Watch.run_eq_ok_iff.mp hrun with ⟨_, _, rfl, rfl⟩ |
    ⟨schedule, residency, streamEnd, last, hschedule, hstream, hend, _, _⟩
  · exact .inl ⟨rfl, fun _ => nofun⟩
  · obtain ⟨bandPairs, steps, results, hwritten⟩ := Layout.schedule_written hschedule
    obtain ⟨left, reached, hreached, hlast⟩ := Reached.streamThrough hstream
    obtain ⟨done, hdone, hdoneFirst, hclears⟩ := hreached.clears_program schedule.program_staged h.off.quiescent
    obtain ⟨hended, hsession⟩ := Prod.mk.inj hend
    refine .inr ⟨schedule, residency, done, hschedule, hdoneFirst, ?_, ?_⟩
    · -- a reset does not reach memory
      have hmemory : after.session.device.memory = reached.device.memory := by
        rw [hsession, hlast]
        cases streamEnd <;> rfl
      exact hmemory ▸ hclears
    · rintro report rfl
      cases streamEnd with
      | finished counters =>
        have hfinished := (streamThrough_finished hwritten.rotates h.off.quiescent hstream).finished h.off.quiescent
        obtain rfl : last = reached := hlast
        exact List.append_cancel_left (hdone.symm.trans (hfinished .result))
      | stopped reason => cases hended
      | exhausted => cases hended

theorem run_outside (h : watch.Sound device) (hrun : watch.run patience surroundings = .ok (ended, after)) {address : Nat}
    (houtside : address < watch.session.buffers.result.address ∨
      watch.session.buffers.result.address + watch.session.buffers.result.bytes ≤ address) :
    after.session.device.memory.byte address = watch.session.device.memory.byte address := by
  rcases h.run_writes hrun with ⟨rfl, _⟩ | ⟨schedule, residency, done, hschedule, hdoneFirst, hclears, _⟩
  · rfl
  · obtain ⟨_, _, _, hwritten⟩ := Layout.schedule_written hschedule
    rcases hclears address with ⟨_, hbyte⟩ | ⟨⟨operation, hoperation, hwrites⟩, _⟩
    · exact hbyte
    · have hwithin : watch.session.buffers.result.address ≤ address ∧
          address < watch.session.buffers.result.address + watch.session.buffers.result.bytes :=
        hwritten.writes_within h.placed.cuts h.placed.result (hdoneFirst.subset hoperation) hwrites
      omega

theorem run_cleared (h : watch.Sound device) (hsmall : watch.session.buffers.result.bytes < Word32.size)
    {report : Report} (hrun : watch.run patience surroundings = .ok (.finished report, after)) {address : Nat}
    (hfrom : watch.session.buffers.result.address ≤ address)
    (hto : address < watch.session.buffers.result.address + watch.session.buffers.result.bytes) :
    after.session.device.memory.byte address = 0 := by
  rcases h.run_writes hrun with ⟨_, hrefused⟩ | ⟨schedule, residency, done, hschedule, _, hclears, hall⟩
  · exact absurd rfl (hrefused report)
  · obtain ⟨_, _, _, hwritten⟩ := Layout.schedule_written hschedule
    obtain ⟨operation, hoperation, hwrites⟩ :=
      hwritten.exists_writes h.placed.cuts h.placed.result hsmall hfrom hto
    rcases hclears address with ⟨hnone, _⟩ | ⟨_, hzero⟩
    · exact absurd hwrites (hnone operation (hall report rfl ▸ hoperation))
    · exact hzero

end Watch.Sound

section Reading

variable {device first : Device} {watch : Watch}
  (hplaced : Placed device watch.session.geometry watch.session.gemm watch.session.plan watch.session.buffers)
  (hsmall : watch.session.buffers.result.bytes < Word32.size)
include hplaced hsmall

theorem Placed.rows_total : Word64.mul watch.session.gemm.lhs.rows watch.session.gemm.rhs.rows =
    .ok (watch.session.gemm.lhs.rows * watch.session.gemm.rhs.rows) := by
  refine Word64.mul_eq_ok_iff.mpr ⟨Nat.lt_of_le_of_lt ?_ (Nat.lt_trans hsmall (by decide)), rfl⟩
  exact Nat.le_trans (Nat.le_mul_of_pos_right _ (by decide)) (hplaced.cuts.rows_mul_le_resultBytes hplaced.result)

/-- A buffer of zeros is read as a result of zeros. -/
theorem Watch.Balanced.readResult_zeros (h : watch.Balanced first)
    (hzeros : ∀ address, watch.session.buffers.result.address ≤ address →
      address < watch.session.buffers.result.address + watch.session.buffers.result.bytes →
      watch.session.device.memory.byte address = 0) :
    ∃ last, watch.session.readResult (watch.session.gemm.lhs.rows * watch.session.gemm.rhs.rows) =
      .ok (.ok (List.replicate (watch.session.gemm.lhs.rows * watch.session.gemm.rhs.rows) 0), last) := by
  have hblock : watch.session.buffers.result.bytes ≤ largestBlock := Nat.le_of_lt (Nat.lt_trans hsmall (by decide))
  have hlive := h.live hplaced (List.mem_cons_of_mem _ (List.mem_cons_of_mem _ List.mem_cons_self)) (Nat.le_refl _)
  obtain ⟨last, hread⟩ := Session.readResult_total hplaced.result (hplaced.rows_total hsmall)
    (Nat.le_trans (hplaced.cuts.rows_mul_le_resultBytes hplaced.result) hblock) hblock hplaced.result_end hlive
  refine ⟨last, hread.trans ?_⟩
  rw [Session.elements_zeros]
  intro byte hbyte
  obtain ⟨offset, hoffset, rfl⟩ := List.mem_map.mp hbyte
  exact hzeros _ (Nat.le_add_right _ _) (Nat.add_lt_add_left (List.mem_range.mp hoffset) _)

end Reading

theorem Watch.Sound.clears {device first : Device} {watch after : Watch} {patience : Nat} {surroundings : Surroundings}
    {ended : RunEnd} (h : watch.Sound device) (hbalanced : watch.Balanced first)
    (hsmall : watch.session.buffers.result.bytes < Word32.size)
    (hrun : watch.run patience surroundings = .ok (ended, after)) : watch.session.Clears ended after.session := by
  have hsame := Session.SameProduct.run hrun
  have hplaced : Placed device after.session.geometry after.session.gemm after.session.plan after.session.buffers := by
    rw [hsame.geometry, hsame.gemm, hsame.plan, hsame.buffers]
    exact h.placed
  constructor
  case size => exact h.placed.result
  case outside => exact fun address => h.run_outside hrun
  case written =>
    rcases h.run_writes hrun with ⟨rfl, _⟩ | ⟨schedule, residency, done, hschedule, hdoneFirst, hclears, _⟩
    · exact .inl rfl
    · exact .inr ⟨schedule, residency, done, hschedule, hdoneFirst, hclears⟩
  case cleared =>
    rintro report rfl address hfrom hto
    exact h.run_cleared hsmall hrun hfrom hto
  case read =>
    rintro report rfl
    rw [← hsame.gemm]
    apply (hbalanced.run h hrun).readResult_zeros hplaced
    · exact hsame.buffers ▸ hsmall
    · rw [hsame.buffers]
      exact fun address => h.run_cleared hsmall hrun
  case mismatch =>
    intro length hlength hroom
    rw [← hsame.gemm] at hlength ⊢
    exact Session.readResult_of_ne (hplaced.rows_total (hsame.buffers ▸ hsmall)) hroom hlength

/-- Whatever was done with a session before, and however a run of it ends, it writes nothing but zeros to the buffer of
the result; and if it comes through, the host reads a result of zeros. -/
theorem run_clears {device : Device} {watch : Watch} (hused : device.Used)
    (hcapacity : device.memory.capacity < Word32.size) (hhistory : History device watch) {patience : Nat}
    {surroundings : Surroundings} {ended : RunEnd} {after : Session}
    (hrun : watch.session.run patience surroundings = .ok (ended, after)) : watch.session.Clears ended after := by
  have hsound := hhistory.sound
  obtain ⟨first, hbalanced⟩ := hhistory.exists_balanced hused
  rw [← watch.run_session, map_eq_ok_iff] at hrun
  obtain ⟨⟨ended, after⟩, hrun, heq⟩ := hrun
  obtain ⟨rfl, rfl⟩ := Prod.mk.inj heq
  exact hsound.clears hbalanced (Nat.lt_of_le_of_lt hsound.placed.result_le hcapacity) hrun

/-- A run of the small product from which the host reads 64 zeros. A buffer of another length is refused. -/
theorem run_clears_small :
    ∃ session report after last, smallSession = some session ∧
      session.run 1000 (.still false) = .ok (.finished report, after) ∧
      session.Clears (.finished report) after ∧ after.readResult 64 = .ok (.ok (List.replicate 64 0), last) ∧
      after.readResult 63 = .ok (.error (.operandMismatch (.elements 63 64)), after) := by
  obtain ⟨session, report, after, hsession, hwatched⟩ := smallSession_runs
  have hrun : session.run 1000 (.still false) = .ok (.finished report, after.session) := by
    have hsame := (Watch.begin session).run_session 1000 (.still false)
    rw [hwatched] at hsame
    exact hsame.symm
  have hclears : session.Clears (.finished report) after.session :=
    run_clears (.made .reference expectedSignature defaultClock) (by decide)
      (.attach (smallSession_attached hsession)) hrun
  have hrows : session.gemm.lhs.rows * session.gemm.rhs.rows = 64 := by
    rw [smallSession_gemm hsession]
    rfl
  obtain ⟨last, hread⟩ := hclears.read report rfl
  have hmismatch := hclears.mismatch 63
  rw [hrows] at hread hmismatch
  exact ⟨session, report, after.session, last, hsession, hrun, hclears, hread, hmismatch (by decide) (by decide)⟩

end BitSerial
