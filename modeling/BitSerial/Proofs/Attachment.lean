import BitSerial.Proofs.Completion
import BitSerial.Proofs.Regions

/-! # Attaching and detaching

Attaching can fail before it touches memory and at each of its three buffers. Nothing is done to a device before the
last buffer is cut, and what was cut by then is released, so that a device whose stages are off is left as it was, up
to two cycles and the part of the window that is gone. A session that came about takes its own buffers with it when it
ends, and none of those that were live before.
-/

namespace BitSerial

open Session (Attachment)

theorem Extends.allocate {before : List Region} {added : List Buffer} {memory after : Memory}
    (h : Extends before added memory.regions) {bytes : Nat} {buffer : Buffer}
    (hallocate : memory.allocate bytes = .ok (.ok buffer, after)) :
    Extends before (added ++ [buffer]) after.regions := by
  obtain ⟨rest, hregions, hrest⟩ := h
  obtain ⟨rfl, _, _, _, _, _, _, rfl⟩ := Memory.allocate_eq_ok hallocate
  refine ⟨rest ++ [⟨memory.next, bytes, 0, 0⟩], ?_, ?_⟩
  · rw [hregions, List.append_assoc]
  · rw [List.map_append, hrest]
    rfl

namespace Memory

theorem free_comm (memory : Memory) (first second : Nat) :
    (memory.free first).free second = (memory.free second).free first := by
  unfold free
  dsimp only
  rw [List.filter_filter, List.filter_filter]
  simp only [Bool.and_comm]

/-- Releasing the buffer that was cut last gives back its region, but not its part of the window. -/
theorem free_allocated {memory after : Memory} (hbelow : ∀ region ∈ memory.regions, region.address < memory.next)
    {bytes : Nat} {buffer : Buffer} (hallocate : memory.allocate bytes = .ok (.ok buffer, after)) :
    after.free buffer.address = { memory with next := after.next } := by
  obtain ⟨rfl, size, _, _, _, _, _, rfl⟩ := allocate_eq_ok hallocate
  have hkept : memory.regions.filter (·.address ≠ memory.next) = memory.regions := by
    apply List.filter_eq_self.mpr
    intro region hregion
    exact decide_eq_true (Nat.ne_of_lt (hbelow region hregion))
  have hgone : [({ address := memory.next, bytes, reads := 0, writes := 0 } : Region)].filter
      (·.address ≠ memory.next) = [] := by
    simp
  unfold free
  rw [List.filter_append, hkept, hgone, List.append_nil]

theorem allocate_below {memory after : Memory} (hbelow : ∀ region ∈ memory.regions, region.address < memory.next)
    {bytes : Nat} {buffer : Buffer} (hallocate : memory.allocate bytes = .ok (.ok buffer, after)) :
    ∀ region ∈ after.regions, region.address < after.next := by
  obtain ⟨_, size, _, hsize, _, _, _, rfl⟩ := allocate_eq_ok hallocate
  intro region hregion
  dsimp only at hregion ⊢
  rcases List.mem_append.mp hregion with hold | hnew
  · exact Nat.lt_add_right size (hbelow region hold)
  · rw [List.mem_singleton.mp hnew]
    exact Nat.lt_add_of_pos_right hsize

end Memory

namespace Session

/-- Whichever of the buffers cannot be cut, those before it are released. -/
theorem allocateBuffers_failed {device after : Device} {gemm : Gemm} {defect : MemoryDefect}
    (hbelow : ∀ region ∈ device.memory.regions, region.address < device.memory.next)
    (h : allocateBuffers device gemm = .ok (.error defect, after)) :
    ∃ next, after = { device with memory := { device.memory with next } } := by
  cases allocateBuffers_cuts h with
  | noLhs _ _ => exact ⟨device.memory.next, rfl⟩
  | @noRhs _ _ _ first _ _ hlhs _ _ =>
    exact ⟨first.next, congrArg (fun memory => { device with memory }) (Memory.free_allocated hbelow hlhs)⟩
  | @noResult _ _ _ lhs rhs first second _ _ hlhs _ hrhs _ _ =>
    have hfirst := Memory.free_allocated hbelow hlhs
    have hsecond := Memory.free_allocated (Memory.allocate_below hbelow hlhs) hrhs
    refine ⟨second.next, congrArg (fun memory => { device with memory }) ?_⟩
    -- the right buffer was cut last, so the argument releases it first
    calc (second.free lhs.address).free rhs.address = (second.free rhs.address).free lhs.address :=
          second.free_comm _ _
      _ = { first with next := second.next }.free lhs.address := by rw [hsecond]
      _ = { first.free lhs.address with next := second.next } := rfl
      _ = { device.memory with next := second.next } := by rw [hfirst]

/-- The three buffers come after the live ones, and are cut from where the window begins. -/
theorem allocateBuffers_regions {device after : Device} {gemm : Gemm} {buffers : Buffers}
    (h : allocateBuffers device gemm = .ok (.ok buffers, after)) :
    buffers.lhs.address = device.memory.next ∧
      Extends device.memory.regions [buffers.lhs, buffers.rhs, buffers.result] after.memory.regions := by
  cases allocateBuffers_cuts h with
  | cut _ hlhs _ hrhs _ hresult =>
    have hnone : Extends device.memory.regions [] device.memory.regions := ⟨[], (List.append_nil _).symm, rfl⟩
    refine ⟨?_, ((hnone.allocate hlhs).allocate hrhs).allocate hresult⟩
    rw [(Memory.allocate_eq_ok hlhs).1]

end Session

namespace Watch

variable {device first : Device} {watch after : Watch}

/-- Where the buffers of a session lie: after those that were live when it began. -/
structure Balanced (device : Device) (watch : Watch) : Prop where
  below : ∀ region ∈ device.memory.regions, region.address < watch.session.buffers.lhs.address ∧
    region.address + region.bytes ≤ watch.session.buffers.lhs.address
  regions : Extends device.memory.regions
    [watch.session.buffers.lhs, watch.session.buffers.rhs, watch.session.buffers.result]
    watch.session.device.memory.regions

/-- Streaming the next schedule leaves the buffers where they are, and those from before as they are. -/
theorem Balanced.reached (h : watch.Balanced first) (hsound : watch.Sound device) {schedule : Schedule}
    {residency : Residency} (hschedule : watch.session.nextSchedule = .ok (schedule, residency)) {left : Backlog}
    {recorded : Recorded} (hreached : Reached schedule.program watch.recorded left recorded) :
    Extends first.memory.regions [watch.session.buffers.lhs, watch.session.buffers.rhs, watch.session.buffers.result]
      recorded.device.memory.regions := by
  obtain ⟨bandPairs, steps, results, hwritten⟩ := Layout.schedule_written hschedule
  have hlhs := hsound.placed.lhs_rhs
  have hrhs := hsound.placed.rhs_result
  apply hreached.extends schedule.program_staged hsound.off.quiescent h.regions
    (fun region hregion => (h.below region hregion).2)
  intro stage operation hoperation
  refine hwritten.above hsound.placed.cuts hsound.placed.result ?_ ?_ hoperation
  · rintro (_ | _)
    · exact Nat.le_refl _
    · exact Nat.le_trans (Nat.le_add_right _ _) hlhs
  · change watch.session.buffers.lhs.address ≤ watch.session.buffers.result.address
    omega

theorem Balanced.run (h : watch.Balanced first) (hsound : watch.Sound device) {patience : Nat}
    {surroundings : Surroundings} {ended : Session.RunEnd}
    (hrun : watch.run patience surroundings = .ok (ended, after)) : after.Balanced first := by
  rcases Watch.run_eq_ok_iff.mp hrun with ⟨_, _, _, rfl⟩ |
    ⟨schedule, residency, streamEnd, last, hschedule, hstream, hend, _, _⟩
  · exact h
  · obtain ⟨left, reached, hreached, hlast⟩ := Reached.streamThrough hstream
    have hregions := h.reached hsound hschedule hreached
    obtain ⟨-, hsession⟩ := Prod.mk.inj hend
    subst hlast
    -- a reset does not reach memory
    cases streamEnd with
    | finished counters => exact ⟨hsession ▸ h.below, hsession ▸ hregions⟩
    | stopped reason => exact ⟨hsession ▸ h.below, hsession ▸ hregions⟩
    | exhausted => exact ⟨hsession ▸ h.below, hsession ▸ hregions⟩

end Watch

/-- The buffers of a session that has just begun come after those that were live, which two cycles had left as they
are. -/
theorem Watch.begin_balanced {device : Device} {gemm : Gemm} {options : Options} {session : Session}
    (h : Session.attach device gemm options = .ok (.attached session)) :
    ∃ signed described, device.tick = .ok signed ∧ signed.tick = .ok described ∧
      (described.memory.Used → (Watch.begin session).Balanced described) := by
  cases Session.attach_attaches h with
  | attached hsigned hdescribed _ hallocate =>
    refine ⟨_, _, hsigned, hdescribed, fun hused => ?_⟩
    obtain ⟨haddress, hregions⟩ := Session.allocateBuffers_regions hallocate
    refine ⟨?_, hregions⟩
    intro region hregion
    obtain ⟨hstart, hend⟩ := hused.below_next region hregion
    exact ⟨Nat.lt_of_lt_of_eq hstart haddress.symm, Nat.le_trans hend (Nat.le_of_eq haddress.symm)⟩

/-- Nothing that is done with a session changes the buffers that were live when it began. -/
theorem History.balanced_of_begin {device first : Device} {watch : Watch}
    (hbegin : ∀ gemm options session, Session.attach device gemm options = .ok (.attached session) →
      (Watch.begin session).Balanced first)
    (h : History device watch) : watch.Balanced first := by
  induction h with
  | attach h => exact hbegin _ _ _ h
  | run h hrun _ ih => exact ih.run h.sound hrun
  | setOperand _ hset ih =>
    rcases Watch.setOperand_eq_ok hset with rfl | ⟨_, memory, hwrite, rfl⟩
    · exact ih
    · obtain ⟨_, rfl⟩ := Memory.write_eq_ok_iff.mp hwrite
      exact ⟨ih.below, ih.regions⟩
  | readResult _ hread ih =>
    obtain ⟨bytesRead, rfl⟩ := Session.readResult_frame hread
    exact ⟨ih.below, ih.regions⟩
  | reset _ ih => exact ⟨ih.below, ih.regions⟩
  | stall _ _ _ ih => exact ⟨ih.below, ih.regions⟩
  | configure _ _ ih => exact ⟨ih.below, ih.regions⟩

/-- Whatever was done with a session on a device that was off, the buffers that were live before it are as they were. -/
theorem History.balanced {device : Device} {watch : Watch} (hused : device.memory.Used)
    (hdisabled : device.enabled = .all false) (h : History device watch) : watch.Balanced device := by
  refine h.balanced_of_begin fun gemm options session hattach => ?_
  obtain ⟨signed, described, hsigned, hdescribed, hbalanced⟩ := Watch.begin_balanced hattach
  rw [device.tick_of_disabled hdisabled] at hsigned
  cases hsigned
  rw [device.countTick.tick_of_disabled hdisabled] at hdescribed
  cases hdescribed
  exact ⟨(hbalanced hused).below, (hbalanced hused).regions⟩

/-- On a device that was not off, they are as two cycles had left them. -/
theorem History.exists_balanced {device : Device} {watch : Watch} (hused : device.Used) (h : History device watch) :
    ∃ first : Device, watch.Balanced first := by
  obtain ⟨_, _, _, hattached, _⟩ := h.attached
  obtain ⟨first, second, hfirst, hsecond, _⟩ := Watch.begin_balanced hattached
  refine ⟨second, h.balanced_of_begin fun gemm options session hattach => ?_⟩
  obtain ⟨signed, described, hsigned, hdescribed, hbalanced⟩ := Watch.begin_balanced hattach
  obtain rfl := Except.ok.inj (hfirst.symm.trans hsigned)
  obtain rfl := Except.ok.inj (hsecond.symm.trans hdescribed)
  exact hbalanced ((hused.tick hfirst).tick hsecond).memory

/-- The buffers of a product lie one after the other at different addresses. -/
theorem Placed.ordered {device : Device} {geometry : Geometry} {gemm : Gemm} {plan : TilePlan} {buffers : Buffers}
    (h : Placed device geometry gemm plan buffers) :
    buffers.lhs.address < buffers.rhs.address ∧ buffers.rhs.address < buffers.result.address := by
  have hlhs := h.lhs_rhs
  have hrhs := h.rhs_result
  have hlhsBytes : 0 < buffers.lhs.bytes := (h.cuts.shape .lhs).bytes_pos (h.operand .lhs)
  have hrhsBytes : 0 < buffers.rhs.bytes := (h.cuts.shape .rhs).bytes_pos (h.operand .rhs)
  omega

/-- The buffers of a session are live. -/
theorem Watch.Balanced.live {first device : Device} {watch : Watch} (h : watch.Balanced first)
    (hplaced : Placed device watch.session.geometry watch.session.gemm watch.session.plan watch.session.buffers)
    {buffer : Buffer}
    (hbuffer : buffer ∈ [watch.session.buffers.lhs, watch.session.buffers.rhs, watch.session.buffers.result])
    {length : Nat} (hlength : length ≤ buffer.bytes) :
    watch.session.device.memory.checkCopy buffer.address length = .ok () := by
  have hordered := hplaced.ordered
  have hbuffers : watch.session.device.memory.buffers = first.memory.buffers ++ _ := h.regions.buffers
  apply Memory.checkCopy_of_unique _ _ hlength
  · rw [hbuffers]
    exact List.mem_append_right _ hbuffer
  · intro other hother haddress
    rw [hbuffers] at hother
    simp only [List.mem_cons, List.not_mem_nil, or_false] at hbuffer
    rcases List.mem_append.mp hother with hbefore | hown
    · obtain ⟨region, hregion, rfl⟩ := List.mem_map.mp hbefore
      have hbelow : region.buffer.address < watch.session.buffers.lhs.address := (h.below region hregion).1
      rcases hbuffer with rfl | rfl | rfl <;> omega
    · simp only [List.mem_cons, List.not_mem_nil, or_false] at hown
      rcases hbuffer with rfl | rfl | rfl <;> rcases hown with rfl | rfl | rfl <;> first | rfl | omega

theorem Watch.Balanced.live_operand {first device : Device} {watch : Watch} (h : watch.Balanced first)
    (hplaced : Placed device watch.session.geometry watch.session.gemm watch.session.plan watch.session.buffers)
    (operand : Operand) {length : Nat} (hlength : length ≤ (watch.session.buffers.operand operand).bytes) :
    watch.session.device.memory.checkCopy (watch.session.buffers.operand operand).address length = .ok () := by
  apply h.live hplaced _ hlength
  cases operand with
  | lhs => exact List.mem_cons_self
  | rhs => exact List.mem_cons_of_mem _ List.mem_cons_self

/-- The end of a session releases its own buffers and no others. -/
theorem Watch.Balanced.detach {device : Device} {watch : Watch} (h : watch.Balanced device)
    (hsound : watch.Sound device) : watch.session.detach.memory.regions = device.memory.regions := by
  obtain ⟨rest, hregions, hrest⟩ := h.regions
  have hlhs := hsound.placed.lhs_rhs
  have hrhs := hsound.placed.rhs_result
  have hkept {address : Nat} (haddress : watch.session.buffers.lhs.address ≤ address) :
      device.memory.regions.filter (·.address ≠ address) = device.memory.regions := by
    apply List.filter_eq_self.mpr
    intro region hregion
    exact decide_eq_true (Nat.ne_of_lt (Nat.lt_of_lt_of_le (h.below region hregion).1 haddress))
  have hgone : ((rest.filter (·.address ≠ watch.session.buffers.lhs.address)).filter
      (·.address ≠ watch.session.buffers.rhs.address)).filter
        (·.address ≠ watch.session.buffers.result.address) = [] := by
    apply List.eq_nil_iff_forall_not_mem.mpr
    intro region hregion
    simp only [List.mem_filter, decide_eq_true_eq] at hregion
    obtain ⟨⟨⟨hmem, hnotLhs⟩, hnotRhs⟩, hnotResult⟩ := hregion
    have hbuffer := List.mem_map_of_mem (f := Region.buffer) hmem
    rw [hrest] at hbuffer
    simp only [List.mem_cons, List.not_mem_nil, or_false] at hbuffer
    rcases hbuffer with heq | heq | heq
    · exact hnotLhs (congrArg Buffer.address heq)
    · exact hnotRhs (congrArg Buffer.address heq)
    · exact hnotResult (congrArg Buffer.address heq)
  unfold Session.detach Device.free Memory.free
  dsimp only
  rw [hregions, List.filter_append, List.filter_append, List.filter_append, hkept (Nat.le_refl _), hkept (by omega),
    hkept (by omega), hgone, List.append_nil]

/-- A device whose stages are off is left as it was by an attempt to attach to it that fails, except that two cycles may
have passed and that memory may have been cut; and a session that comes about, however it went, ends with the regions
of memory that were live before it. -/
theorem attach_balanced {device : Device} (hused : device.Used) (hdisabled : device.enabled = .all false) :
    (∀ gemm options reason after, Session.attach device gemm options = .ok (.failed reason after) →
      ∃ ticks cycles next,
        after = { device with
          cycles
          memory := { device.memory with next }
          statistics := { device.statistics with ticks } } ∧
        ((∀ defect, reason ≠ .deviceMemory defect) → next = device.memory.next)) ∧
    ∀ watch, History device watch → watch.session.detach.memory.regions = device.memory.regions := by
  constructor
  · intro gemm options reason after hattach
    cases Session.attach_attaches hattach with
    | foreign hsigned =>
      rw [device.tick_of_disabled hdisabled] at hsigned
      cases hsigned
      exact ⟨_, _, device.memory.next, rfl, fun _ => rfl⟩
    | unplanned hsigned hdescribed =>
      rw [device.tick_of_disabled hdisabled] at hsigned
      cases hsigned
      rw [device.countTick.tick_of_disabled hdisabled] at hdescribed
      cases hdescribed
      exact ⟨_, _, device.memory.next, rfl, fun _ => rfl⟩
    | crowded hsigned hdescribed hallocate =>
      rw [device.tick_of_disabled hdisabled] at hsigned
      cases hsigned
      rw [device.countTick.tick_of_disabled hdisabled] at hdescribed
      cases hdescribed
      have hbelow (region : Region) (hregion : region ∈ device.countTick.countTick.memory.regions) :
          region.address < device.countTick.countTick.memory.next :=
        (hused.memory.below_next region hregion).1
      obtain ⟨next, rfl⟩ := Session.allocateBuffers_failed hbelow hallocate
      exact ⟨_, _, next, rfl, fun hother => absurd rfl (hother _)⟩
  · intro watch hhistory
    exact (hhistory.balanced hused.memory hdisabled).detach hhistory.sound

/-- A device with a live buffer and room for two of the three buffers of the small product. -/
def crowdedDevice : Device :=
  { Device.ofGeometry .reference with
    memory := { Memory.ofCapacity 2176 with
      regions := [⟨Memory.windowBase, 100, 0, 0⟩]
      next := Memory.windowBase + 128 } }

theorem crowdedDevice_used : crowdedDevice.Used := by
  have hallocate :
      (Memory.ofCapacity 2176).allocate 100 = .ok (.ok ⟨Memory.windowBase, 100⟩, crowdedDevice.memory) := by
    refine bind_eq_ok_iff.mpr ⟨128, by decide, ?_⟩
    dsimp only
    rw [if_pos (by decide)]
    exact bind_eq_ok_iff.mpr ⟨Memory.windowBase + 128, by decide, rfl⟩
  exact .store (.made .reference expectedSignature defaultClock) (.allocate (.made 2176) hallocate)

/-- Why attaching failed. -/
def Session.Attachment.reason? : Session.Attachment → Option Refusal
  | .attached _ => none
  | .failed reason _ => some reason

/-- The third buffer of the small product cannot be cut, and the buffer that was live before is left alone. On a device
with room, the session and its first run leave nothing behind. -/
theorem attach_balanced_small :
    (∃ defect after, Session.attach crowdedDevice smallGemm ⟨none, false⟩ = .ok (.failed (.deviceMemory defect) after) ∧
      after.memory.regions = [⟨Memory.windowBase, 100, 0, 0⟩]) ∧
    ∃ session ended after, smallSession = some session ∧
      (Watch.begin session).run 1000 (.still false) = .ok (ended, after) ∧ after.session.runs = 1 ∧
      after.session.detach.memory.regions = [] := by
  constructor
  · have hfails : ((Session.attach crowdedDevice smallGemm ⟨none, false⟩).toOption.bind Attachment.reason?) =
        some (.deviceMemory (.outOfMemory 256 0)) := by
      decide +kernel
    obtain ⟨attachment, hattach, hreason⟩ := Option.bind_eq_some_iff.mp hfails
    have hattach := toOption_eq_some_iff.mp hattach
    cases attachment with
    | attached session => cases hreason
    | failed reason after =>
      cases hreason
      obtain ⟨_, _, _, rfl, _⟩ := (attach_balanced crowdedDevice_used rfl).1 _ _ _ _ hattach
      exact ⟨_, _, hattach, rfl⟩
  · have hruns : smallSession.bind (fun session => ((Watch.begin session).run 1000 (.still false)).toOption.map
        fun outcome => (outcome.1.report?.isSome, outcome.2.session.runs)) = some (true, 1) := by
      decide +kernel
    obtain ⟨session, hsession, hruns⟩ := Option.bind_eq_some_iff.mp hruns
    obtain ⟨⟨ended, after⟩, hrun, hruns⟩ := Option.map_eq_some_iff.mp hruns
    obtain ⟨hreport, hruns⟩ := Prod.mk.inj hruns
    have hrun := toOption_eq_some_iff.mp hrun
    have hended : ended ≠ .unfinished := by
      rintro rfl
      cases hreport
    have hhistory := History.run (.attach (smallSession_attached hsession)) hrun hended
    exact ⟨session, ended, after, hsession, hrun, hruns,
      (attach_balanced (.made .reference expectedSignature defaultClock) rfl).2 after hhistory⟩

end BitSerial
