import BitSerial.Proofs.Completion
import BitSerial.Proofs.CycleCounts
import BitSerial.Proofs.Headroom
import BitSerial.Proofs.Rebuilding

/-! # Schedules that cannot overflow

A step fetches a tile of each operand at most. Along the whole nest a tile of one operand is asked for once for each row
tile of each plane of the other one, so no more is fetched than every byte of an operand as often as the other operand
has such row tiles. A row of an operand has eight bytes at least, so there are no more row tiles than an eighth of its
bytes. If both operands can be counted in 32 bits, the product of their sizes fits 64 bits, and all that a schedule
counts is a fraction of it.
-/

namespace BitSerial

theorem OperandShape.Checked.eight_le_rowBytes {shape : OperandShape} {operand : Operand} {geometry : Geometry}
    (h : shape.Checked operand geometry) : 8 ≤ shape.rowBytes := by
  rw [← h.rowWords_mul]
  exact Nat.le_mul_of_pos_left 8 (Nat.pos_of_mul_pos_right (h.rowWords_mul ▸ h.rowBytes_pos))

namespace Layout

/-- A product that is counted in 32 bits, with its buffers where addresses still fit their words. -/
structure Compact (layout : Layout) : Prop where
  operand : ∀ operand, ∃ bytes, (layout.gemm.operand operand).bytes = .ok bytes ∧ bytes < Word32.size ∧
    layout.addresses.operand operand + bytes < Word64.size
  result : ∃ bytes, layout.gemm.resultBytes = .ok bytes ∧ bytes < Word32.size ∧
    layout.addresses.result + bytes < Word64.size

/-- The row tiles of an operand in all of its planes. -/
def planeTiles (layout : Layout) (operand : Operand) : Nat :=
  (layout.gemm.operand operand).bits * (layout.plan.operand operand).rowTiles

/-- The steps of all output tiles. -/
def allSteps (layout : Layout) : Nat := layout.nest.outputCount * layout.nest.stepCount

variable {layout : Layout} {operand : Operand} {bytes : Nat}

theorem Compact.housed (h : layout.Compact) : layout.Housed := by
  obtain ⟨bytes, hbytes, -, hend⟩ := h.result
  refine ⟨fun operand => ?_, bytes, hbytes, hend⟩
  obtain ⟨bytes, hbytes, -, hend⟩ := h.operand operand
  exact ⟨bytes, hbytes, hend⟩

/-- Every pair of row tiles meets along the whole common dimension. -/
theorem allSteps_eq (layout : Layout) :
    layout.allSteps = layout.planeTiles .lhs * layout.planeTiles .rhs * layout.plan.commonTiles := by
  change layout.plan.lhs.rowTiles * layout.plan.rhs.rowTiles *
    (layout.gemm.lhs.bits * layout.gemm.rhs.bits * layout.plan.commonTiles) = _
  unfold planeTiles Gemm.operand TilePlan.operand
  ring

section Sizes

variable (hplan : TilePlan.ofGemm layout.geometry layout.gemm = .ok layout.plan)

include hplan

/-- The tiles of an operand are all of its bytes. -/
theorem tiles_mul_tileBytes (hbytes : (layout.gemm.operand operand).bytes = .ok bytes) :
    layout.planeTiles operand * layout.plan.commonTiles * (layout.plan.operand operand).tileBytes = bytes := by
  have hcuts := TilePlan.ofGemm_cuts hplan
  rw [TilePlan.ofGemm_tileBytes hplan, (hcuts.shape operand).bytes_eq hbytes, ← (hcuts.tiling operand).rowTiles,
    ← hcuts.commonTiles_mul_segment operand, planeTiles]
  ring

/-- A row tile has a row of eight bytes at least. -/
theorem eight_mul_planeTiles_le (hbytes : (layout.gemm.operand operand).bytes = .ok bytes) :
    8 * layout.planeTiles operand ≤ bytes := by
  have hcuts := TilePlan.ofGemm_cuts hplan
  have hrows : (layout.plan.operand operand).rowTiles ≤ (layout.gemm.operand operand).paddedRows := by
    rw [← (hcuts.tiling operand).rowTiles]
    exact Nat.le_mul_of_pos_right _ (hcuts.tiling operand).tileRows_pos
  rw [(hcuts.shape operand).bytes_eq hbytes, Nat.mul_comm 8]
  exact Nat.mul_le_mul (Nat.mul_le_mul_left _ hrows) (hcuts.shape operand).eight_le_rowBytes

variable {lhsBytes rhsBytes : Nat} (hlhs : layout.gemm.lhs.bytes = .ok lhsBytes)
  (hrhs : layout.gemm.rhs.bytes = .ok rhsBytes)

include hlhs hrhs

/-- If nothing is ever found on chip, every byte of an operand is fetched for each row tile of the other one. -/
theorem allSteps_mul_pairBytes :
    layout.allSteps * layout.pairBytes = layout.planeTiles .rhs * lhsBytes + layout.planeTiles .lhs * rhsBytes := by
  have hlhsTiles : layout.planeTiles .lhs * layout.plan.commonTiles * layout.plan.lhs.tileBytes = lhsBytes :=
    tiles_mul_tileBytes hplan hlhs
  have hrhsTiles : layout.planeTiles .rhs * layout.plan.commonTiles * layout.plan.rhs.tileBytes = rhsBytes :=
    tiles_mul_tileBytes hplan hrhs
  rw [← hlhsTiles, ← hrhsTiles, allSteps_eq, pairBytes]
  ring

theorem eight_mul_allSteps_le : 8 * layout.allSteps ≤ lhsBytes * rhsBytes := by
  have hcommon : layout.planeTiles .lhs * layout.plan.commonTiles ≤ lhsBytes :=
    tiles_le_bytes (TilePlan.ofGemm_cuts hplan) hlhs
  have hrow : 8 * layout.planeTiles .rhs ≤ rhsBytes := eight_mul_planeTiles_le hplan hrhs
  calc 8 * layout.allSteps = layout.planeTiles .lhs * layout.plan.commonTiles * (8 * layout.planeTiles .rhs) := by
        rw [allSteps_eq]
        ring
    _ ≤ lhsBytes * rhsBytes := Nat.mul_le_mul hcommon hrow

theorem four_mul_fetchBytes_le : 4 * (layout.allSteps * layout.pairBytes) ≤ lhsBytes * rhsBytes := by
  have hlhsRows : 8 * layout.planeTiles .lhs ≤ lhsBytes := eight_mul_planeTiles_le hplan hlhs
  have hrhsRows : 8 * layout.planeTiles .rhs ≤ rhsBytes := eight_mul_planeTiles_le hplan hrhs
  -- either operand is fetched an eighth as often as the other one has bytes
  have hlhsTimes := Nat.mul_le_mul_left lhsBytes hrhsRows
  have hrhsTimes := Nat.mul_le_mul_right rhsBytes hlhsRows
  have htwice : 2 * (4 * (layout.allSteps * layout.pairBytes)) =
      lhsBytes * (8 * layout.planeTiles .rhs) + 8 * layout.planeTiles .lhs * rhsBytes := by
    rw [allSteps_mul_pairBytes hplan hlhs hrhs]
    ring
  omega

end Sizes

/-- A written schedule fetches a pair of tiles in each of its steps, at most. -/
theorem ScheduleWritten.fetchBytes_le {schedule : Schedule} {start last : Residency} {bandPairs : Nat}
    {steps : List Step} {results : List (Instruction ResultCommand)}
    (h : layout.ScheduleWritten schedule start last bandPairs steps results)
    (hplan : TilePlan.ofGemm layout.geometry layout.gemm = .ok layout.plan) :
    schedule.traffic.fetchBytes ≤ layout.allSteps * layout.pairBytes := by
  have htotal := h.steps_chain.total_le (·.2) layout.pairBytes ?_
  · rwa [h.steps_length, Nat.zero_add] at htotal
  · rintro position before step after ⟨addresses, blocks, middle, bytes, hwritten, hafter, -⟩
    rw [hafter]
    exact Nat.add_le_add_left (hwritten.bytes_le hplan) _

/-- The sizes of the operands of a compact product can be multiplied. -/
theorem Compact.sizes (h : layout.Compact) : ∃ lhsBytes rhsBytes, layout.gemm.lhs.bytes = .ok lhsBytes ∧
    layout.gemm.rhs.bytes = .ok rhsBytes ∧ lhsBytes * rhsBytes < Word64.size := by
  obtain ⟨lhsBytes, hlhs, hlhsSmall, -⟩ := h.operand .lhs
  obtain ⟨rhsBytes, hrhs, hrhsSmall, -⟩ := h.operand .rhs
  refine ⟨lhsBytes, rhsBytes, hlhs, hrhs, ?_⟩
  calc lhsBytes * rhsBytes < Word32.size * Word32.size := Nat.mul_lt_mul_of_lt_of_lt hlhsSmall hrhsSmall
    _ = Word64.size := rfl

/-- What there is to count in a compact product is a fraction of what 64 bits can hold. -/
theorem Compact.bounded (h : layout.Compact)
    (hplan : TilePlan.ofGemm layout.geometry layout.gemm = .ok layout.plan) :
    8 * layout.allSteps < Word64.size ∧ 4 * (layout.allSteps * layout.pairBytes) < Word64.size := by
  obtain ⟨lhsBytes, rhsBytes, hlhs, hrhs, hsizes⟩ := h.sizes
  exact ⟨Nat.lt_of_le_of_lt (eight_mul_allSteps_le hplan hlhs hrhs) hsizes,
    Nat.lt_of_le_of_lt (four_mul_fetchBytes_le hplan hlhs hrhs) hsizes⟩

/-- A tracker that has counted up to half of what it can has room for a compact product. -/
theorem Compact.counts (h : layout.Compact) (hplan : TilePlan.ofGemm layout.geometry layout.gemm = .ok layout.plan)
    {start : Residency} (hhits : start.hits < Word64.size / 2) (hmisses : start.misses < Word64.size / 2) :
    layout.CountsBytes start := by
  obtain ⟨hsteps, hfetch⟩ := h.bounded hplan
  unfold allSteps at hsteps hfetch
  -- two answers a step are at most a quarter of the count, and half of it was left
  exact ⟨⟨by omega, by omega⟩, by omega⟩

end Layout

/-- The product of a session on a device with a window of ordinary size is compact. -/
theorem Session.attach_compact {device : Device} {gemm : Gemm} {options : Options} {session : Session}
    (hcapacity : device.memory.capacity = Memory.defaultCapacity)
    (h : Session.attach device gemm options = .ok (.attached session)) : session.layout.Compact := by
  obtain ⟨hplaced, -, -⟩ := Session.attach_eq_ok h
  have hsmall : Memory.defaultCapacity < Word32.size := by decide
  have hlhsRhs := hplaced.lhs_rhs
  have hrhsResult := hplaced.rhs_result
  have hend := hplaced.result_end
  refine ⟨fun operand => ⟨_, hplaced.operand operand, ?_, ?_⟩, _, hplaced.result, ?_, hend⟩
  · exact Nat.lt_of_le_of_lt (Session.attach_operand_le h operand) (hcapacity ▸ hsmall)
  · cases operand with
    | lhs =>
      change session.buffers.lhs.address + session.buffers.lhs.bytes < Word64.size
      omega
    | rhs =>
      change session.buffers.rhs.address + session.buffers.rhs.bytes < Word64.size
      omega
  · exact Nat.lt_of_le_of_lt hplaced.result_le (hcapacity ▸ hsmall)

/-- Nothing overflows in the schedule of a compact product, from any tracker that has counted up to half of what it can:
its loops can be counted, and even if everything is fetched again whenever it is asked for, all bytes that move can be
added up. Any product that was given memory in a window of ordinary size is compact. -/
theorem compact_schedules {layout : Layout} (hplan : TilePlan.ofGemm layout.geometry layout.gemm = .ok layout.plan)
    (hcompact : layout.Compact) {start : Residency} (hhits : start.hits < Word64.size / 2)
    (hmisses : start.misses < Word64.size / 2) :
    (∀ fault, layout.schedule start ≠ .error (.fault fault)) ∧
      layout.nest.steps = .ok layout.allSteps ∧
      (∀ bytes, layout.gemm.resultBytes = .ok bytes → layout.allSteps * layout.pairBytes + bytes < Word64.size) ∧
      (∀ schedule last, layout.schedule start = .ok (schedule, last) →
        schedule.traffic.fetchBytes ≤ layout.allSteps * layout.pairBytes ∧
          ∃ total, schedule.traffic.total = .ok total) ∧
      ∀ device gemm options session, device.memory.capacity = Memory.defaultCapacity →
        Session.attach device gemm options = .ok (.attached session) → session.layout.Compact := by
  have hcuts := TilePlan.ofGemm_cuts hplan
  have hcounts := hcompact.counts hplan hhits hmisses
  have hbounded := (hcompact.bounded hplan).2
  obtain ⟨bytes, hbytes, hsmall, -⟩ := hcompact.result
  have hword : 2 * Word32.size ≤ Word64.size := by decide
  have hall : layout.allSteps * layout.pairBytes + bytes < Word64.size := by omega
  refine ⟨?_, ?_, ?_, ?_, fun device gemm options session => Session.attach_compact⟩
  · intro fault hfault
    obtain ⟨reason, hreason⟩ := Layout.schedule_fails hplan hcompact.housed hcounts _ hfault
    cases hreason
  · exact Layout.nest_steps_eq hcuts fun operand => by
      obtain ⟨bytes, hbytes, hsmall, -⟩ := hcompact.operand operand
      exact ⟨bytes, hbytes, hsmall⟩
  · intro found hfound
    cases hbytes.symm.trans hfound
    exact hall
  · intro schedule last hschedule
    obtain ⟨bandPairs, steps, results, hwritten⟩ := Layout.schedule_written hschedule
    have hfetch := hwritten.fetchBytes_le hplan
    have hwrite := hwritten.writeBytes_eq_resultBytes hcuts hbytes hsmall
    exact ⟨hfetch, _, Word64.add_eq_ok_iff.mpr ⟨by omega, rfl⟩⟩

/-- The tiled product takes 24 steps of 256 bytes at most, and its result is 96 bytes. The product of a small session is
compact. -/
theorem compact_schedules_tiled :
    tiledLayout.nest.steps = .ok 24 ∧ 24 * 256 + 96 < Word64.size ∧
      (∃ schedule last total, tiledLayout.schedule .fresh = .ok (schedule, last) ∧
        schedule.traffic.fetchBytes ≤ 24 * 256 ∧ schedule.traffic.total = .ok total) ∧
      ∃ session, smallSession = some session ∧ session.layout.Compact := by
  have hresult : tiledLayout.gemm.resultBytes = .ok 96 := toOption_eq_some_iff.mp (by decide +kernel)
  have hcompact : tiledLayout.Compact := by
    refine ⟨?_, 96, hresult, by decide, by decide⟩
    rintro (_ | _)
    · exact ⟨1024, toOption_eq_some_iff.mp (by decide +kernel), by decide, by decide⟩
    · exact ⟨768, toOption_eq_some_iff.mp (by decide +kernel), by decide, by decide⟩
  obtain ⟨-, hsteps, hbytes, htraffic, hattached⟩ :=
    @compact_schedules tiledLayout tiledLayout_plan hcompact .fresh (by decide) (by decide)
  have hwrites : (tiledLayout.schedule .fresh).toOption.isSome := by decide +kernel
  obtain ⟨⟨schedule, last⟩, hschedule⟩ := Option.isSome_iff_exists.mp hwrites
  have hschedule := toOption_eq_some_iff.mp hschedule
  obtain ⟨hfetch, total, htotal⟩ := htraffic schedule last hschedule
  have hbegins : smallSession.isSome := by decide +kernel
  obtain ⟨session, hsession⟩ := Option.isSome_iff_exists.mp hbegins
  exact ⟨hsteps, hbytes 96 hresult, ⟨schedule, last, total, hschedule, hfetch, htotal⟩, session, hsession,
    hattached _ _ _ session rfl (smallSession_attached hsession)⟩

end BitSerial
