import Mathlib
import BitSerial.Proofs.Rebuilding
import BitSerial.Proofs.Rounding

/-! # The efficiency of the array

The efficiency of the execute stage is the quotient of the operations of a product and those that the array can do in
the cycles in which the stage worked. Both are the same whole number. It may need more than the 53 places of a floating
point number, so it has to come out rounded in the same way from both sides.

The operations in a cycle and the cycles are exact, so one rounding is all that the product of them takes. The other
side is a chain of five multiplications. Addresses of 32 bits keep the first three exact. A right operand of one or two
planes only moves the places of a number. With more planes than there are slots, every plane of the right operand is
fetched again for each plane of the left one, and a run whose cycles can be counted has no time for more than 2^32 rows
of them. That keeps the fourth multiplication exact, and the last one is the only one that rounds.
-/

namespace BitSerial

/-- The operations of the padded product for all pairs of bit planes, as an exact number. -/
def Gemm.exactOperations (gemm : Gemm) : Nat :=
  2 * gemm.lhs.paddedRows * gemm.rhs.paddedRows * gemm.lhs.paddedCols * gemm.lhs.bits * gemm.rhs.bits

/-- The operations of the array in a cycle, as an exact number. -/
def Geometry.exactPeak (geometry : Geometry) : Nat :=
  2 * geometry.lhsDim * geometry.rhsDim * geometry.commonDim

namespace Layout

variable {layout : Layout}

/-- Within an output tile, the steps that need the same tile of the right operand come round again and again. -/
theorem neededTile_rhs_period {output step otherOutput other : Nat}
    (h : layout.neededTile .rhs output step = layout.neededTile .rhs otherOutput other) :
    step % (layout.nest.commonTiles * layout.nest.rhsPlanes) =
      other % (layout.nest.commonTiles * layout.nest.rhsPlanes) := by
  obtain ⟨hplane, _, hcommon⟩ := TilePlace.mk.inj h
  change step / layout.nest.commonTiles % layout.nest.rhsPlanes =
    other / layout.nest.commonTiles % layout.nest.rhsPlanes at hplane
  change step % layout.nest.commonTiles = other % layout.nest.commonTiles at hcommon
  rw [Nat.mod_mul, Nat.mod_mul, hcommon, hplane]

/-- The bytes of a tile of the right operand. -/
def rhsTileBytes (layout : Layout) : Nat := layout.plan.rhs.segment * layout.plan.rhs.tileRows

namespace ScheduleWritten

variable {schedule : Schedule} {start last : Residency} {bandPairs : Nat} {steps : List Step}
  {results : List (Instruction ResultCommand)}

/-- If more tiles of the right operand take turns than there are slots, every step but the first two of an output tile
brings one in. -/
theorem rhs_fetched (h : layout.ScheduleWritten schedule start last bandPairs steps results)
    (hcuts : layout.plan.Cuts layout.geometry layout.gemm)
    (hsmall : ∃ bytes, layout.gemm.rhs.bytes = .ok bytes ∧ bytes < Word32.size)
    (hturns : operandSlots < layout.nest.commonTiles * layout.nest.rhsPlanes) {position : Nat}
    (hposition : position < steps.length) (hinner : operandSlots ≤ position % layout.nest.stepCount)
    {addresses : PerOperand Nat} {blocks : PerOperand (Option FetchBlock)} {before middle after : Residency}
    {bytes : Nat} (hremembers : layout.Remembers start position before)
    (hwritten : layout.StepWritten (position / layout.nest.stepCount) (position % layout.nest.stepCount) addresses
      blocks before middle after bytes) :
    layout.rhsTileBytes ≤ bytes := by
  obtain ⟨operandBytes, hoperand, hlt⟩ := hsmall
  have hbytes : bytes = blocks.lhs.elim 0 FetchBlock.bytes + blocks.rhs.elim 0 FetchBlock.bytes :=
    (FetchCommand.bytes_eq_ok_iff.mp hwritten.bytes).2
  rcases (hwritten.known .rhs).2 with ⟨block, hblock, _⟩ | ⟨_, hknown⟩
  · obtain ⟨_, hblockBytes, _, hcount⟩ := @fetchBlock_eq _ .rhs _ _ _ hcuts hoperand hlt _ (hwritten.fetchBlock hblock)
    have hrhs : blocks.rhs = some block := hblock
    rw [hbytes, hrhs]
    change _ ≤ _ + block.blockBytes * block.blockCount
    rw [hblockBytes, hcount]
    exact Nat.le_add_left _ _
  · -- the slot was last used two steps ago, in the same output tile, for another tile
    exfalso
    have hpast : operandSlots ≤ position := Nat.le_trans hinner (Nat.mod_le _ _)
    have hslot : layout.stepSlot (position / layout.nest.stepCount) (position % layout.nest.stepCount) =
        (position - operandSlots) % operandSlots := by
      rw [stepSlot_eq, ← Nat.mod_eq_sub_mod hpast]
    rw [hslot] at hknown
    have hbefore : position - operandSlots < position := Nat.sub_lt (Nat.lt_of_lt_of_le (by decide) hpast) (by decide)
    have hperiod := neededTile_rhs_period (h.neededTile_of_known hcuts hbefore hposition
      (Nat.le_of_eq (Nat.sub_add_cancel hpast).symm) hremembers (hwritten.address .rhs) hknown)
    have hback := Nat.sub_mod_eq_zero_of_mod_eq hperiod
    rw [← Nat.mod_sub_of_le hinner, Nat.sub_sub_self hinner, Nat.mod_eq_of_lt hturns] at hback
    cases hback

/-- What is fetched at least if more tiles of the right operand take turns than there are slots. -/
theorem le_fetchBytes (h : layout.ScheduleWritten schedule start last bandPairs steps results)
    (hcuts : layout.plan.Cuts layout.geometry layout.gemm)
    (hsmall : ∃ bytes, layout.gemm.rhs.bytes = .ok bytes ∧ bytes < Word32.size)
    (hturns : operandSlots < layout.nest.commonTiles * layout.nest.rhsPlanes) :
    layout.nest.outputCount * (layout.nest.stepCount - operandSlots) * layout.rhsTileBytes ≤
      schedule.traffic.fetchBytes := by
  obtain ⟨before, hzero, hlast, hlink, hremembers⟩ := h.trackers
  have hinner (output inner : Nat) (houtput : output < layout.nest.outputCount) (hend : inner ≤ layout.nest.stepCount) :
      (before (output * layout.nest.stepCount)).2 + (inner - operandSlots) * layout.rhsTileBytes ≤
        (before (output * layout.nest.stepCount + inner)).2 := by
    induction inner with
    | zero => rw [Nat.zero_sub, Nat.zero_mul]; rfl
    | succ inner ih =>
      have hwithin : output * layout.nest.stepCount + inner < steps.length := by
        rw [h.steps_length]
        exact mul_add_lt_mul houtput hend
      obtain ⟨addresses, blocks, middle, bytes, hwritten, hadds, _⟩ := hlink _ hwithin
      have hbefore := ih (Nat.le_of_succ_le hend)
      rw [← Nat.add_assoc, hadds]
      rcases Nat.lt_or_ge inner operandSlots with hfirst | hlater
      · rw [Nat.sub_eq_zero_of_le hfirst, Nat.zero_mul]
        omega
      · have hbrought := h.rhs_fetched hcuts hsmall hturns hwithin
          (by rwa [Nat.mul_add_mod_of_lt hend]) (hremembers _ (Nat.le_of_lt hwithin)) hwritten
        rw [Nat.succ_sub hlater, Nat.succ_mul]
        omega
  have houter (output : Nat) (houtput : output ≤ layout.nest.outputCount) :
      output * (layout.nest.stepCount - operandSlots) * layout.rhsTileBytes ≤
        (before (output * layout.nest.stepCount)).2 := by
    induction output with
    | zero => rw [Nat.zero_mul, Nat.zero_mul]; exact Nat.zero_le _
    | succ output ih =>
      have hbefore := ih (Nat.le_of_succ_le houtput)
      have htile := hinner output layout.nest.stepCount houtput (Nat.le_refl _)
      rw [Nat.succ_mul, Nat.succ_mul, Nat.add_mul]
      omega
  have hall := houter layout.nest.outputCount (Nat.le_refl _)
  rwa [← h.steps_length, hlast] at hall

/-- With three planes or more, a run brings in a plane of the right operand for each plane of the left one. -/
theorem rhs_le_fetchBytes (h : layout.ScheduleWritten schedule start last bandPairs steps results)
    (hcuts : layout.plan.Cuts layout.geometry layout.gemm)
    (hsmall : ∃ bytes, layout.gemm.rhs.bytes = .ok bytes ∧ bytes < Word32.size) (hplanes : 3 ≤ layout.gemm.rhs.bits) :
    layout.gemm.lhs.bits * layout.gemm.rhs.paddedRows * layout.gemm.rhs.rowBytes ≤ schedule.traffic.fetchBytes := by
  have hcommon : 0 < layout.plan.commonTiles := hcuts.commonTiles_pos
  have htiles : layout.plan.rhs.rowTiles ≤ layout.nest.outputCount := Nat.le_mul_of_pos_left _ (hcuts.rowTiles_pos .lhs)
  have hrows : layout.plan.rhs.rowTiles * layout.plan.rhs.tileRows = layout.gemm.rhs.paddedRows :=
    (hcuts.tiling .rhs).rowTiles
  have hcols : layout.plan.commonTiles * layout.plan.rhs.segment = layout.gemm.rhs.rowBytes :=
    hcuts.commonTiles_mul_segment .rhs
  have hturns : operandSlots < layout.nest.commonTiles * layout.nest.rhsPlanes :=
    Nat.lt_of_lt_of_le hplanes (Nat.le_mul_of_pos_left _ hcommon)
  have hsteps : layout.gemm.lhs.bits * layout.plan.commonTiles ≤ layout.nest.stepCount - operandSlots := by
    have hpairs : layout.gemm.lhs.bits * layout.plan.commonTiles * 3 ≤ layout.nest.stepCount := by
      change _ ≤ layout.gemm.lhs.bits * layout.gemm.rhs.bits * layout.plan.commonTiles
      rw [Nat.mul_right_comm _ layout.gemm.rhs.bits]
      exact Nat.mul_le_mul_left _ hplanes
    have hpos := Nat.mul_pos (hcuts.shape .lhs).bits_pos hcommon
    change 0 < layout.gemm.lhs.bits * _ at hpos
    unfold operandSlots
    omega
  calc layout.gemm.lhs.bits * layout.gemm.rhs.paddedRows * layout.gemm.rhs.rowBytes
    _ = layout.plan.rhs.rowTiles * (layout.gemm.lhs.bits * layout.plan.commonTiles) * layout.rhsTileBytes := by
      rw [← hrows, ← hcols, rhsTileBytes]
      ring
    _ ≤ layout.nest.outputCount * (layout.nest.stepCount - operandSlots) * layout.rhsTileBytes :=
      Nat.mul_le_mul_right _ (Nat.mul_le_mul htiles hsteps)
    _ ≤ schedule.traffic.fetchBytes := h.le_fetchBytes hcuts hsmall hturns

end ScheduleWritten

end Layout

/-- A product whose operands and result take less than 2^32 bytes each. -/
structure Gemm.Addressable (gemm : Gemm) : Prop where
  rows_pos : ∀ operand, 0 < (gemm.operand operand).paddedRows
  bits_pos : ∀ operand, 0 < (gemm.operand operand).bits
  words_pos : 0 < gemm.lhs.rowWords
  cols : gemm.lhs.paddedCols = 64 * gemm.lhs.rowWords
  operand : ∀ operand, (gemm.operand operand).bits * (gemm.operand operand).paddedRows * gemm.lhs.rowWords < 2 ^ 29
  result : gemm.lhs.paddedRows * gemm.rhs.paddedRows < 2 ^ 30

theorem TilePlan.Cuts.addressable {plan : TilePlan} {geometry : Geometry} {gemm : Gemm} (h : plan.Cuts geometry gemm)
    (hoperands : ∀ operand, ∃ bytes, (gemm.operand operand).bytes = .ok bytes ∧ bytes < Word32.size)
    (hresult : ∃ bytes, gemm.resultBytes = .ok bytes ∧ bytes < Word32.size) : gemm.Addressable := by
  have hbytes : gemm.lhs.rowWords * wordBytes = gemm.lhs.rowBytes := (h.shape .lhs).rowWords_mul
  have hcols : 8 * gemm.lhs.rowBytes = gemm.lhs.paddedCols := (h.shape .lhs).eight_mul_rowBytes
  have hrow (operand : Operand) : (gemm.operand operand).rowBytes = gemm.lhs.rowBytes := by
    rw [OperandShape.rowBytes, h.depth operand, OperandShape.rowBytes]
  constructor
  case rows_pos => exact fun operand => (h.shape operand).paddedRows_pos
  case bits_pos => exact fun operand => (h.shape operand).bits_pos
  case words_pos =>
    have hpos : 0 < gemm.lhs.rowBytes := (h.shape .lhs).rowBytes_pos
    rw [← hbytes] at hpos
    exact Nat.pos_of_mul_pos_right hpos
  case cols =>
    unfold wordBytes at hbytes
    omega
  case operand =>
    intro operand
    obtain ⟨bytes, hoperand, hlt⟩ := hoperands operand
    rw [(h.shape operand).bytes_eq hoperand, hrow, ← hbytes, ← Nat.mul_assoc] at hlt
    exact Nat.lt_of_mul_lt_mul_right hlt
  case result =>
    obtain ⟨bytes, hproduct, hlt⟩ := hresult
    rw [Gemm.resultBytes_eq hproduct] at hlt
    exact Nat.lt_of_mul_lt_mul_right hlt

namespace Gemm.Addressable

variable {gemm : Gemm}

theorem words_lt (h : gemm.Addressable) (operand : Operand) :
    (gemm.operand operand).paddedRows * gemm.lhs.rowWords < 2 ^ 29 := by
  refine Nat.lt_of_le_of_lt ?_ (h.operand operand)
  rw [Nat.mul_assoc]
  exact Nat.le_mul_of_pos_left _ (h.bits_pos operand)

theorem bits_lt (h : gemm.Addressable) (operand : Operand) : (gemm.operand operand).bits < 2 ^ 29 := by
  refine Nat.lt_of_le_of_lt ?_ (h.operand operand)
  rw [Nat.mul_assoc]
  exact Nat.le_mul_of_pos_right _ (Nat.mul_pos (h.rows_pos operand) h.words_pos)

/-- The terms of the product, packed into words. -/
theorem packed_lt (h : gemm.Addressable) : gemm.lhs.paddedRows * gemm.rhs.paddedRows * gemm.lhs.rowWords < 2 ^ 44 := by
  have hlhs : gemm.lhs.paddedRows * gemm.lhs.rowWords < 2 ^ 29 := h.words_lt .lhs
  have hrhs : gemm.rhs.paddedRows * gemm.lhs.rowWords < 2 ^ 29 := h.words_lt .rhs
  refine lt_of_pow_lt_pow_left₀ 2 (Nat.zero_le _) ?_
  calc (gemm.lhs.paddedRows * gemm.rhs.paddedRows * gemm.lhs.rowWords) ^ 2
    _ = gemm.lhs.paddedRows * gemm.lhs.rowWords * (gemm.rhs.paddedRows * gemm.lhs.rowWords) *
        (gemm.lhs.paddedRows * gemm.rhs.paddedRows) := by ring
    _ < 2 ^ 29 * 2 ^ 29 * 2 ^ 30 := Nat.mul_lt_mul'' (Nat.mul_lt_mul'' hlhs hrhs) h.result
    _ = (2 ^ 44) ^ 2 := by norm_num

/-- The operations for one pair of planes. -/
theorem operations_lt (h : gemm.Addressable) :
    2 * gemm.lhs.paddedRows * gemm.rhs.paddedRows * gemm.lhs.paddedCols < 2 ^ 53 := by
  have hpacked := h.packed_lt
  calc 2 * gemm.lhs.paddedRows * gemm.rhs.paddedRows * gemm.lhs.paddedCols
    _ = gemm.lhs.paddedRows * gemm.rhs.paddedRows * gemm.lhs.rowWords * 2 ^ 7 := by
      rw [h.cols]
      ring
    _ < 2 ^ 53 := by omega

/-- The terms of the product for all planes of the left operand, packed into words. -/
theorem packedPlanes_lt (h : gemm.Addressable) (hplanes : gemm.lhs.bits * gemm.rhs.paddedRows < 2 ^ 32) :
    gemm.lhs.paddedRows * gemm.rhs.paddedRows * gemm.lhs.rowWords * gemm.lhs.bits < 2 ^ 53 := by
  rcases Nat.lt_or_ge gemm.rhs.paddedRows (2 ^ 24) with hfew | hmany
  · calc gemm.lhs.paddedRows * gemm.rhs.paddedRows * gemm.lhs.rowWords * gemm.lhs.bits
      _ = gemm.lhs.bits * gemm.lhs.paddedRows * gemm.lhs.rowWords * gemm.rhs.paddedRows := by ring
      _ < 2 ^ 29 * 2 ^ 24 := Nat.mul_lt_mul'' (h.operand .lhs) hfew
      _ = 2 ^ 53 := by norm_num
  · -- many rows on the right leave few on the left, and short ones
    have hrows : gemm.lhs.paddedRows < 2 ^ 6 := by
      refine Nat.lt_of_mul_lt_mul_right (Nat.lt_of_le_of_lt (Nat.mul_le_mul_left _ hmany) ?_)
      exact Nat.lt_of_lt_of_le h.result (by norm_num)
    have hwords : gemm.lhs.rowWords < 2 ^ 5 := by
      refine Nat.lt_of_mul_lt_mul_left (Nat.lt_of_le_of_lt (Nat.mul_le_mul_right _ hmany) ?_)
      exact Nat.lt_of_lt_of_le (h.words_lt .rhs) (by norm_num)
    calc gemm.lhs.paddedRows * gemm.rhs.paddedRows * gemm.lhs.rowWords * gemm.lhs.bits
      _ = gemm.lhs.paddedRows * gemm.lhs.rowWords * (gemm.lhs.bits * gemm.rhs.paddedRows) := by ring
      _ < 2 ^ 6 * 2 ^ 5 * 2 ^ 32 := Nat.mul_lt_mul'' (Nat.mul_lt_mul'' hrows hwords) hplanes
      _ < 2 ^ 53 := by norm_num

theorem operations_pos (h : gemm.Addressable) :
    0 < 2 * gemm.lhs.paddedRows * gemm.rhs.paddedRows * gemm.lhs.paddedCols := by
  have hlhs : 0 < gemm.lhs.paddedRows := h.rows_pos .lhs
  have hrhs : 0 < gemm.rhs.paddedRows := h.rows_pos .rhs
  have hwords := h.words_pos
  rw [h.cols]
  positivity

theorem exactOperations_pos (h : gemm.Addressable) : 0 < gemm.exactOperations :=
  Nat.mul_pos (Nat.mul_pos h.operations_pos (h.bits_pos .lhs)) (h.bits_pos .rhs)

theorem exactOperations_lt (h : gemm.Addressable) : gemm.exactOperations < 2 ^ 111 :=
  calc gemm.exactOperations
    _ < 2 ^ 53 * 2 ^ 29 * 2 ^ 29 :=
      Nat.mul_lt_mul'' (Nat.mul_lt_mul'' h.operations_lt (h.bits_lt .lhs)) (h.bits_lt .rhs)
    _ = 2 ^ 111 := by norm_num

/-- The operations of a report for one pair of planes are exact. -/
theorem operations_eq (h : gemm.Addressable) : gemm.operations true =
    Float.ofNat (2 * gemm.lhs.paddedRows * gemm.rhs.paddedRows * gemm.lhs.paddedCols) := by
  rw [operations, if_pos rfl, two_mul_ofNat h.operations_pos h.operations_lt]

/-- The operations of a report for all pairs of planes are rounded once. -/
theorem binaryOperations_eq (h : gemm.Addressable)
    (hplanes : 3 ≤ gemm.rhs.bits → gemm.lhs.bits * gemm.rhs.paddedRows < 2 ^ 32) :
    gemm.binaryOperations true = Float.ofNat gemm.exactOperations := by
  let single := 2 * gemm.lhs.paddedRows * gemm.rhs.paddedRows * gemm.lhs.paddedCols
  have hpos : 0 < single := h.operations_pos
  have hlhs : 0 < gemm.lhs.bits := h.bits_pos .lhs
  have hrhs : 0 < gemm.rhs.bits := h.bits_pos .rhs
  have hleft := Nat.mul_pos hpos hlhs
  have hlt : single * gemm.lhs.bits * gemm.rhs.bits < 2 ^ 200 := Nat.lt_trans h.exactOperations_lt (by norm_num)
  have hltLeft := Nat.lt_of_le_of_lt (Nat.le_mul_of_pos_right _ hrhs) hlt
  have hexact (operand : Operand) : Binary64.Exact (gemm.operand operand).bits :=
    .of_lt (h.bits_pos operand) (Nat.lt_trans (h.bits_lt operand) (by norm_num))
  rw [binaryOperations, h.operations_eq, ofNat_mul hpos hlhs hltLeft (.of_lt hpos h.operations_lt) (hexact .lhs)]
  rcases Nat.lt_or_ge gemm.rhs.bits 3 with hfew | hmany
  · have hpower : gemm.rhs.bits = 2 ^ (gemm.rhs.bits - 1) := by
      obtain hone | htwo : gemm.rhs.bits = 1 ∨ gemm.rhs.bits = 2 := by omega
      · rw [hone]
        rfl
      · rw [htwo]
        rfl
    have hproduct := ofNat_mul_two_pow hleft (gemm.rhs.bits - 1) (hpower ▸ hlt)
    rwa [← hpower] at hproduct
  · have hpacked : single * gemm.lhs.bits =
        gemm.lhs.paddedRows * gemm.rhs.paddedRows * gemm.lhs.rowWords * gemm.lhs.bits * 2 ^ 7 := by
      unfold single
      rw [h.cols]
      ring
    have hpackedPos := Nat.pos_of_mul_pos_right (hpacked ▸ hleft)
    have hall : Binary64.Exact (single * gemm.lhs.bits) := by
      rw [hpacked]
      exact (Binary64.Exact.of_lt hpackedPos (h.packedPlanes_lt (hplanes hmany))).mul_two_pow hpackedPos 7
    exact ofNat_mul hleft hrhs hlt hall (hexact .rhs)

end Gemm.Addressable

/-- The array is not larger than the padded product. -/
theorem TilePlan.Cuts.exactPeak_le {plan : TilePlan} {geometry : Geometry} {gemm : Gemm} (h : plan.Cuts geometry gemm) :
    geometry.exactPeak ≤ 2 * gemm.lhs.paddedRows * gemm.rhs.paddedRows * gemm.lhs.paddedCols := by
  have hrows (operand : Operand) : geometry.dim operand ≤ (gemm.operand operand).paddedRows :=
    Nat.le_of_dvd (h.shape operand).paddedRows_pos (Nat.dvd_of_mod_eq_zero (h.shape operand).paddedRows_dim)
  have hcols := Nat.le_of_dvd (h.shape .lhs).paddedCols_pos (Nat.dvd_of_mod_eq_zero (h.shape .lhs).paddedCols_dim)
  exact Nat.mul_le_mul (Nat.mul_le_mul (Nat.mul_le_mul_left 2 (hrows .lhs)) (hrows .rhs)) hcols

/-- A stage whose cycles are enough for the operations of the product, and not for more, has an efficiency of one. -/
theorem Report.stageEfficiency_eq_one {report : Report} {stage : Stage} (haddressable : report.gemm.Addressable)
    (hplanes : 3 ≤ report.gemm.rhs.bits → report.gemm.lhs.bits * report.gemm.rhs.paddedRows < 2 ^ 32)
    (hpeak : report.geometry.exactPeak < 2 ^ 53) (hcycles : report.counters.runCycles stage < 2 ^ 53)
    (hwork : report.counters.runCycles stage * report.geometry.exactPeak = report.gemm.exactOperations) :
    report.stageEfficiency stage = 1.0 := by
  have hoperations := haddressable.exactOperations_pos
  have hlt : report.gemm.exactOperations < 2 ^ 200 := Nat.lt_trans haddressable.exactOperations_lt (by norm_num)
  have hcyclesPos := Nat.pos_of_mul_pos_right (hwork ▸ hoperations)
  have hpeakPos := Nat.pos_of_mul_pos_left (hwork ▸ hoperations)
  rw [stageEfficiency, haddressable.binaryOperations_eq hplanes, Geometry.peakOperations,
    two_mul_ofNat hpeakPos hpeak, ← Geometry.exactPeak,
    ofNat_mul hcyclesPos hpeakPos (hwork ▸ hlt) (.of_lt hcyclesPos hcycles) (.of_lt hpeakPos hpeak), hwork]
  exact quotient_ofNat_self hoperations hlt

end BitSerial
