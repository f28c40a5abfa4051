import BitSerial.Tiling
import BitSerial.Proofs.Outcome

/-! # What a plan divides

A plan that was accepted cuts without remainder: the rows of an operand are whole tiles, its columns are whole stripes,
and the stripes are whole bands. These are the facts of a plan that everything about addresses rests on.

Apart from what it demands, a plan is a matter of a few divisions and minima. `Gemm.plan` does them without bound, and
every plan that was accepted is that one.
-/

namespace BitSerial

/-- What the check of an array makes sure of. -/
structure Geometry.Checked (geometry : Geometry) : Prop where
  dim_pos : ∀ operand, 0 < geometry.dim operand
  commonDim_pos : 0 < geometry.commonDim
  commonDim_bytes : geometry.commonDim % 8 = 0
  queueEntries_pos : 0 < geometry.queueEntries

theorem Geometry.checked {geometry : Geometry} (h : geometry.check = .ok ()) : geometry.Checked := by
  simp only [Geometry.check, bind_eq_ok_iff, demandCapability_eq_ok_iff] at h
  obtain ⟨_, ⟨hlhs, hrhs, hcommon⟩, _, _, _, _, _, ⟨hbytes, _⟩, hqueue⟩ := h
  refine ⟨?_, Nat.pos_of_ne_zero hcommon, hbytes, Nat.pos_of_ne_zero hqueue⟩
  rintro (_ | _)
  · exact Nat.pos_of_ne_zero hlhs
  · exact Nat.pos_of_ne_zero hrhs

/-- What the check of an operand makes sure of. -/
structure OperandShape.Checked (shape : OperandShape) (operand : Operand) (geometry : Geometry) : Prop where
  bits_pos : 0 < shape.bits
  rows_le : shape.rows ≤ shape.paddedRows
  paddedRows_pos : 0 < shape.paddedRows
  paddedCols_pos : 0 < shape.paddedCols
  paddedRows_dim : shape.paddedRows % geometry.dim operand = 0
  paddedCols_dim : shape.paddedCols % geometry.commonDim = 0
  paddedCols_words : shape.paddedCols % wordBits = 0

theorem OperandShape.checked {shape : OperandShape} {operand : Operand} {geometry : Geometry}
    (h : shape.check operand geometry = .ok ()) : shape.Checked operand geometry := by
  simp only [OperandShape.check, bind_eq_ok_iff, lift_eq_ok_iff, demandShape_eq_ok_iff, Word64.mod_eq_ok_iff] at h
  obtain ⟨_, hbits, _, ⟨hrows, hcols⟩, _, ⟨hpaddedRows, hpaddedCols⟩, _, ⟨_, rfl⟩, _, hrowsDim, _, ⟨_, rfl⟩, _, hcolsDim, hwords⟩ := h
  exact ⟨Nat.pos_of_ne_zero hbits, hpaddedRows, Nat.lt_of_lt_of_le (Nat.pos_of_ne_zero hrows) hpaddedRows,
    Nat.lt_of_lt_of_le (Nat.pos_of_ne_zero hcols) hpaddedCols, hrowsDim, hcolsDim, hwords⟩

/-- What the check of both operands makes sure of. -/
theorem Gemm.checked {gemm : Gemm} {geometry : Geometry} (h : gemm.check geometry = .ok ()) :
    (∀ operand, (gemm.operand operand).Checked operand geometry) ∧
      ∀ operand, (gemm.operand operand).paddedCols = gemm.lhs.paddedCols := by
  simp only [Gemm.check, bind_eq_ok_iff, demandShape_eq_ok_iff] at h
  obtain ⟨_, hlhs, _, hrhs, hdepth, _⟩ := h
  constructor
  · rintro (_ | _)
    · exact OperandShape.checked hlhs
    · exact OperandShape.checked hrhs
  · rintro (_ | _)
    · rfl
    · exact hdepth.symm

/-- How an operand is cut, given the length of a band. -/
structure Tiling.Cuts (tiling : Tiling) (geometry : Geometry) (operand : Operand) (shape : OperandShape)
    (bandStripes : Nat) : Prop where
  dim : tiling.dim = geometry.dim operand
  bandBytes : tiling.bandBytes = geometry.stripeBytes operand * bandStripes
  tileRows_pos : 0 < tiling.tileRows
  rowTiles : tiling.rowTiles * tiling.tileRows = shape.paddedRows

theorem Tiling.ofOperand_cuts {geometry : Geometry} {operand : Operand} {shape : OperandShape}
    {bandStripes commonTiles : Nat} {tiling : Tiling}
    (h : Tiling.ofOperand geometry operand shape bandStripes commonTiles = .ok tiling) :
    tiling.Cuts geometry operand shape bandStripes := by
  simp only [Tiling.ofOperand, bind_eq_ok_iff, pure_eq_ok_iff, lift_eq_ok_iff, demandShape_eq_ok_iff,
    demandCapability_eq_ok_iff, Word64.mul_eq_ok_iff, Word64.div_eq_ok_iff, Word64.mod_eq_ok_iff] at h
  obtain ⟨_, ⟨_, rfl⟩, _, _, _, _, _, hbands, _, ⟨_, rfl⟩, _, ⟨htileRows, rfl⟩, _, hloose, _, ⟨_, rfl⟩, _, _, _, _, _, _,
    _, _, _, _, _, _, _, _, _, _, rfl⟩ := h
  exact ⟨rfl, rfl, Nat.pos_of_ne_zero htileRows, Nat.div_mul_cancel (Nat.dvd_of_mod_eq_zero hloose)⟩

/-- How a plan cuts a product. -/
structure TilePlan.Cuts (plan : TilePlan) (geometry : Geometry) (gemm : Gemm) : Prop where
  array : geometry.Checked
  shape : ∀ operand, (gemm.operand operand).Checked operand geometry
  depth : ∀ operand, (gemm.operand operand).paddedCols = gemm.lhs.paddedCols
  tiling : ∀ operand, (plan.operand operand).Cuts geometry operand (gemm.operand operand) plan.bandStripes
  stripes : plan.stripes * geometry.commonDim = gemm.lhs.paddedCols
  commonTiles : plan.commonTiles * plan.bandStripes = plan.stripes

theorem TilePlan.ofGemm_cuts {geometry : Geometry} {gemm : Gemm} {plan : TilePlan}
    (h : TilePlan.ofGemm geometry gemm = .ok plan) : plan.Cuts geometry gemm := by
  simp only [TilePlan.ofGemm, bind_eq_ok_iff, pure_eq_ok_iff, lift_eq_ok_iff, demandShape_eq_ok_iff,
    demandCapability_eq_ok_iff, Word64.div_eq_ok_iff, Word64.mod_eq_ok_iff] at h
  obtain ⟨_, hgeometry, _, hgemm, _, _, _, _, _, _, _, ⟨_, rfl⟩, _, ⟨_, rfl⟩, _, hbands, _, ⟨_, rfl⟩, lhs, hlhs, rhs,
    hrhs, rfl⟩ := h
  obtain ⟨hshapes, hdepth⟩ := Gemm.checked hgemm
  refine ⟨Geometry.checked hgeometry, hshapes, hdepth, ?_, ?_, ?_⟩
  · rintro (_ | _)
    · exact Tiling.ofOperand_cuts hlhs
    · exact Tiling.ofOperand_cuts hrhs
  · exact Nat.div_mul_cancel (Nat.dvd_of_mod_eq_zero (hshapes .lhs).paddedCols_dim)
  · exact Nat.div_mul_cancel (Nat.dvd_of_mod_eq_zero hbands)

theorem Gemm.resultBytes_eq {gemm : Gemm} {bytes : Nat} (h : gemm.resultBytes = .ok bytes) :
    bytes = gemm.lhs.paddedRows * gemm.rhs.paddedRows * elementBytes := by
  simp only [resultBytes, resultElements, bind_eq_ok_iff, Word64.mul_eq_ok_iff] at h
  obtain ⟨_, ⟨_, rfl⟩, _, rfl⟩ := h
  rfl

namespace TilePlan.Cuts

variable {plan : TilePlan} {geometry : Geometry} {gemm : Gemm}

theorem commonTiles_pos (h : plan.Cuts geometry gemm) : 0 < plan.commonTiles := by
  have hstripes : 0 < plan.stripes := by
    apply Nat.pos_of_ne_zero
    intro hzero
    have hcols := (h.shape .lhs).paddedCols_pos
    change 0 < gemm.lhs.paddedCols at hcols
    rw [← h.stripes, hzero, Nat.zero_mul] at hcols
    exact Nat.lt_irrefl 0 hcols
  rw [← h.commonTiles] at hstripes
  exact Nat.pos_of_mul_pos_right hstripes

theorem rowTiles_pos (h : plan.Cuts geometry gemm) (operand : Operand) : 0 < (plan.operand operand).rowTiles := by
  have hpos := (h.shape operand).paddedRows_pos
  rw [← (h.tiling operand).rowTiles] at hpos
  exact Nat.pos_of_mul_pos_right hpos

theorem tileRows_le (h : plan.Cuts geometry gemm) (operand : Operand) :
    (plan.operand operand).tileRows ≤ (gemm.operand operand).paddedRows := by
  rw [← (h.tiling operand).rowTiles]
  exact Nat.le_mul_of_pos_left _ (h.rowTiles_pos operand)

theorem rowTiles_le (h : plan.Cuts geometry gemm) (operand : Operand) :
    (plan.operand operand).rowTiles ≤ (gemm.operand operand).paddedRows := by
  rw [← (h.tiling operand).rowTiles]
  exact Nat.le_mul_of_pos_right _ (h.tiling operand).tileRows_pos

/-- The rows of a tile end where the rows of the operand do, or before. -/
theorem tile_end (h : plan.Cuts geometry gemm) (operand : Operand) {tile : Nat}
    (htile : tile < (plan.operand operand).rowTiles) :
    tile * (plan.operand operand).tileRows + (plan.operand operand).tileRows ≤ (gemm.operand operand).paddedRows := by
  calc tile * (plan.operand operand).tileRows + (plan.operand operand).tileRows
      = (tile + 1) * (plan.operand operand).tileRows := (Nat.succ_mul _ _).symm
    _ ≤ (plan.operand operand).rowTiles * (plan.operand operand).tileRows := Nat.mul_le_mul_right _ htile
    _ = (gemm.operand operand).paddedRows := (h.tiling operand).rowTiles

/-- The result has an element for every row of an operand. -/
theorem paddedRows_le_resultBytes (h : plan.Cuts geometry gemm) {bytes : Nat} (hbytes : gemm.resultBytes = .ok bytes)
    (operand : Operand) : (gemm.operand operand).paddedRows ≤ bytes := by
  have hlhs : 0 < gemm.lhs.paddedRows := (h.shape .lhs).paddedRows_pos
  have hrhs : 0 < gemm.rhs.paddedRows := (h.shape .rhs).paddedRows_pos
  rw [Gemm.resultBytes_eq hbytes]
  apply Nat.le_trans _ (Nat.le_mul_of_pos_right _ (by decide))
  cases operand with
  | lhs => exact Nat.le_mul_of_pos_right _ hrhs
  | rhs => exact Nat.le_mul_of_pos_left _ hlhs

/-- The product without its padding is no larger than with it. -/
theorem rows_mul_le_resultBytes (h : plan.Cuts geometry gemm) {bytes : Nat} (hbytes : gemm.resultBytes = .ok bytes) :
    gemm.lhs.rows * gemm.rhs.rows * elementBytes ≤ bytes := by
  rw [Gemm.resultBytes_eq hbytes]
  exact Nat.mul_le_mul_right _ (Nat.mul_le_mul (h.shape .lhs).rows_le (h.shape .rhs).rows_le)

/-- Commands can say how many rows a tile has, if the result is small enough. -/
theorem low_tileRows (h : plan.Cuts geometry gemm) {bytes : Nat} (hbytes : gemm.resultBytes = .ok bytes)
    (hsmall : bytes < Word32.size) (operand : Operand) :
    Word32.low (plan.operand operand).tileRows = (plan.operand operand).tileRows := by
  apply Word32.low_eq_self
  calc (plan.operand operand).tileRows ≤ (gemm.operand operand).paddedRows := h.tileRows_le operand
    _ ≤ bytes := h.paddedRows_le_resultBytes hbytes operand
    _ < Word32.size := hsmall

theorem bandStripes_pos (h : plan.Cuts geometry gemm) : 0 < plan.bandStripes := by
  have hcols := (h.shape .lhs).paddedCols_pos
  change 0 < gemm.lhs.paddedCols at hcols
  rw [← h.stripes, ← h.commonTiles] at hcols
  exact Nat.pos_of_mul_pos_left (Nat.pos_of_mul_pos_right hcols)

end TilePlan.Cuts

namespace Gemm

variable (gemm : Gemm) (geometry : Geometry)

/-- The stripes along the common dimension. -/
def stripes : Nat := gemm.lhs.paddedCols / geometry.commonDim

/-- The stripes of a band: as many as both operands can hold in a slot, and not more than there are. -/
def bandStripes : Nat := min (min (geometry.slotStripes .lhs) (geometry.slotStripes .rhs)) (gemm.stripes geometry)

/-- The bands of a tile: as many as a slot holds, and not more than a plane has. -/
def tileBands (operand : Operand) : Nat :=
  min (geometry.slotStripes operand / gemm.bandStripes geometry)
    ((gemm.operand operand).paddedRows / geometry.dim operand)

/-- The rows of a tile. -/
def tileRows (operand : Operand) : Nat := gemm.tileBands geometry operand * geometry.dim operand

/-- The tiling of an operand, without demands and without bound. -/
def tiling (operand : Operand) : Tiling :=
  let shape := gemm.operand operand
  let bandBytes := geometry.stripeBytes operand * gemm.bandStripes geometry
  let rowTiles := shape.paddedRows / gemm.tileRows geometry operand
  { dim := geometry.dim operand
    stripeBytes := geometry.stripeBytes operand
    slotStripes := geometry.slotStripes operand
    bandStripes := gemm.bandStripes geometry
    bandBytes
    tileBands := gemm.tileBands geometry operand
    tileBytes := bandBytes * gemm.tileBands geometry operand
    tileRows := gemm.tileRows geometry operand
    rowTiles
    tileCount := shape.bits * rowTiles * (gemm.stripes geometry / gemm.bandStripes geometry)
    bound := if geometry.slotStripes operand / gemm.bandStripes geometry < shape.paddedRows / geometry.dim operand
      then .hardware else .software }

/-- The plan of a product, without demands and without bound. -/
def plan : TilePlan where
  lhs := gemm.tiling geometry .lhs
  rhs := gemm.tiling geometry .rhs
  stripes := gemm.stripes geometry
  bandStripes := gemm.bandStripes geometry
  commonTiles := gemm.stripes geometry / gemm.bandStripes geometry

end Gemm

theorem Gemm.bandStripes_le (gemm : Gemm) (geometry : Geometry) (operand : Operand) :
    gemm.bandStripes geometry ≤ geometry.slotStripes operand := by
  unfold bandStripes
  cases operand <;> omega

/-- A slot has room for the bands of a tile. -/
theorem Gemm.tileBands_mul_le (gemm : Gemm) (geometry : Geometry) (operand : Operand) :
    gemm.tileBands geometry operand * gemm.bandStripes geometry ≤ geometry.slotStripes operand := by
  calc gemm.tileBands geometry operand * gemm.bandStripes geometry
      ≤ geometry.slotStripes operand / gemm.bandStripes geometry * gemm.bandStripes geometry :=
        Nat.mul_le_mul_right _ (Nat.min_le_left _ _)
    _ ≤ geometry.slotStripes operand := Nat.div_mul_le_self _ _

/-- A tiling that was accepted is the one without demands. -/
theorem Tiling.eq_of_ofOperand {geometry : Geometry} {gemm : Gemm} (operand : Operand) {tiling : Tiling}
    (h : Tiling.ofOperand geometry operand (gemm.operand operand) (gemm.bandStripes geometry)
      (gemm.stripes geometry / gemm.bandStripes geometry) = .ok tiling) : tiling = gemm.tiling geometry operand := by
  simp only [Tiling.ofOperand, bind_eq_ok_iff, pure_eq_ok_iff, lift_eq_ok_iff, demandShape_eq_ok_iff,
    demandCapability_eq_ok_iff, Word64.mul_eq_ok_iff, Word64.div_eq_ok_iff, Word64.mod_eq_ok_iff] at h
  obtain ⟨_, ⟨_, rfl⟩, _, ⟨_, rfl⟩, _, ⟨_, rfl⟩, _, hbands, _, ⟨_, rfl⟩, _, ⟨htileRows, rfl⟩, _, hloose, _, ⟨_, rfl⟩, _,
    ⟨_, rfl⟩, bytes, hbytes, _, ⟨_, rfl⟩, _, _, _, ⟨_, rfl⟩, _, ⟨_, rfl⟩, _, ⟨_, rfl⟩, _, ⟨hcount, _⟩, rfl⟩ := h
  rw [hcount]
  rfl

theorem TilePlan.eq_of_ofGemm {geometry : Geometry} {gemm : Gemm} {plan : TilePlan}
    (h : TilePlan.ofGemm geometry gemm = .ok plan) : plan = gemm.plan geometry := by
  simp only [TilePlan.ofGemm, bind_eq_ok_iff, pure_eq_ok_iff, lift_eq_ok_iff, demandShape_eq_ok_iff,
    demandCapability_eq_ok_iff, Word64.div_eq_ok_iff, Word64.mod_eq_ok_iff] at h
  obtain ⟨_, _, _, _, _, _, _, _, _, _, _, ⟨_, rfl⟩, _, ⟨_, rfl⟩, _, _, _, ⟨_, rfl⟩, lhs, hlhs, rhs, hrhs, rfl⟩ := h
  rw [Tiling.eq_of_ofOperand .lhs hlhs, Tiling.eq_of_ofOperand .rhs hrhs]
  rfl

theorem Gemm.plan_operand (gemm : Gemm) (geometry : Geometry) (operand : Operand) :
    (gemm.plan geometry).operand operand = gemm.tiling geometry operand := by
  cases operand <;> rfl

/-- The rows of a tile are whole bands. -/
theorem TilePlan.ofGemm_bands {geometry : Geometry} {gemm : Gemm} {plan : TilePlan}
    (h : TilePlan.ofGemm geometry gemm = .ok plan) (operand : Operand) :
    (plan.operand operand).tileRows = (plan.operand operand).tileBands * geometry.dim operand := by
  rw [TilePlan.eq_of_ofGemm h, Gemm.plan_operand]
  rfl

theorem TilePlan.ofGemm_slotStripes {geometry : Geometry} {gemm : Gemm} {plan : TilePlan}
    (h : TilePlan.ofGemm geometry gemm = .ok plan) (operand : Operand) :
    (plan.operand operand).slotStripes = geometry.slotStripes operand := by
  rw [TilePlan.eq_of_ofGemm h, Gemm.plan_operand]
  rfl

theorem TilePlan.ofGemm_bandStripes {geometry : Geometry} {gemm : Gemm} {plan : TilePlan}
    (h : TilePlan.ofGemm geometry gemm = .ok plan) : plan.bandStripes = gemm.bandStripes geometry := by
  rw [TilePlan.eq_of_ofGemm h]
  rfl

/-- The bands of a tile fit a slot. -/
theorem TilePlan.ofGemm_room {geometry : Geometry} {gemm : Gemm} {plan : TilePlan}
    (h : TilePlan.ofGemm geometry gemm = .ok plan) (operand : Operand) :
    (plan.operand operand).tileBands * plan.bandStripes ≤ geometry.slotStripes operand := by
  rw [TilePlan.eq_of_ofGemm h, Gemm.plan_operand]
  exact gemm.tileBands_mul_le geometry operand

/-- The result has an element for every pair of bands. -/
theorem TilePlan.Cuts.bandPairs_le {plan : TilePlan} {geometry : Geometry} {gemm : Gemm} (h : plan.Cuts geometry gemm)
    (hbands : ∀ operand, (plan.operand operand).tileRows = (plan.operand operand).tileBands * geometry.dim operand)
    {bytes : Nat} (hbytes : gemm.resultBytes = .ok bytes) : plan.lhs.tileBands * plan.rhs.tileBands ≤ bytes := by
  have hrows (operand : Operand) : (plan.operand operand).tileBands ≤ (gemm.operand operand).paddedRows := by
    calc (plan.operand operand).tileBands
        ≤ (plan.operand operand).tileBands * geometry.dim operand := Nat.le_mul_of_pos_right _ (h.array.dim_pos operand)
      _ = (plan.operand operand).tileRows := (hbands operand).symm
      _ ≤ (gemm.operand operand).paddedRows := h.tileRows_le operand
  calc plan.lhs.tileBands * plan.rhs.tileBands
      ≤ gemm.lhs.paddedRows * gemm.rhs.paddedRows := Nat.mul_le_mul (hrows .lhs) (hrows .rhs)
    _ ≤ gemm.lhs.paddedRows * gemm.rhs.paddedRows * elementBytes := Nat.le_mul_of_pos_right _ (by decide)
    _ = bytes := (Gemm.resultBytes_eq hbytes).symm

end BitSerial
