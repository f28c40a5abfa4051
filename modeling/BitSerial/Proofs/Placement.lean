import BitSerial.Proofs.Offsets

/-! # The closed form of addresses

The address of a tile is put together from strides of different origin: those of planes and rows come from the shape of
the operand, those of row tiles and segments from the plan. All of them agree. The row of a tile begins at a whole
number of rows of the packed operand and a whole number of segments of such a row, and these two numbers, which are
digits of the offset, say which row of which tile it is.
-/

namespace BitSerial

namespace LoopNest

variable {nest : LoopNest}

theorem rowTile_eq {lhsTile rhsTile : Nat} (hrhsTile : rhsTile < nest.rhsTiles) :
    nest.lhsTile (lhsTile * nest.rhsTiles + rhsTile) = lhsTile ∧
      nest.rhsTile (lhsTile * nest.rhsTiles + rhsTile) = rhsTile :=
  div_mod_of_lt _ hrhsTile

theorem stepIndex_eq {lhsPlane rhsPlane common : Nat} (hrhsPlane : rhsPlane < nest.rhsPlanes)
    (hcommon : common < nest.commonTiles) :
    nest.stepIndex ((lhsPlane * nest.rhsPlanes + rhsPlane) * nest.commonTiles + common) =
      ⟨lhsPlane, rhsPlane, common⟩ := by
  unfold stepIndex
  simp only [div_mod_of_lt _ hcommon, div_mod_of_lt _ hrhsPlane]

end LoopNest

/-- The bytes of one row of a band, as a number without bound. -/
def Tiling.segment (tiling : Tiling) : Nat := tiling.bandBytes / tiling.dim

namespace OperandShape.Checked

variable {shape : OperandShape} {operand : Operand} {geometry : Geometry}

theorem eight_mul_rowBytes (h : shape.Checked operand geometry) : 8 * shape.rowBytes = shape.paddedCols := by
  have := h.paddedCols_words
  unfold wordBits at this
  unfold OperandShape.rowBytes
  omega

theorem rowWords_mul (h : shape.Checked operand geometry) : shape.rowWords * wordBytes = shape.rowBytes := by
  have := h.paddedCols_words
  unfold wordBits at this
  unfold OperandShape.rowBytes OperandShape.rowWords wordBytes wordBits
  omega

theorem rowBytes_pos (h : shape.Checked operand geometry) : 0 < shape.rowBytes := by
  have hpos := h.paddedCols_pos
  rw [← h.eight_mul_rowBytes] at hpos
  exact Nat.pos_of_mul_pos_left hpos

/-- The rows of a plane follow each other without a gap. -/
theorem planeBytes_eq (h : shape.Checked operand geometry) {bytes : Nat} (hbytes : shape.planeBytes = .ok bytes) :
    bytes = shape.paddedRows * shape.rowBytes := by
  simp only [OperandShape.planeBytes, OperandShape.planeWords, bind_eq_ok_iff, Word64.mul_eq_ok_iff] at hbytes
  obtain ⟨_, ⟨_, rfl⟩, _, rfl⟩ := hbytes
  rw [Nat.mul_assoc, h.rowWords_mul]

theorem bytes_eq (h : shape.Checked operand geometry) {bytes : Nat} (hbytes : shape.bytes = .ok bytes) :
    bytes = shape.bits * shape.paddedRows * shape.rowBytes := by
  simp only [OperandShape.bytes, OperandShape.words, OperandShape.planeWords, bind_eq_ok_iff,
    Word64.mul_eq_ok_iff] at hbytes
  obtain ⟨_, ⟨_, ⟨_, rfl⟩, _, rfl⟩, _, rfl⟩ := hbytes
  rw [← h.rowWords_mul, Nat.mul_right_comm _ _ shape.bits, Nat.mul_comm shape.paddedRows shape.bits, Nat.mul_assoc]

theorem bytes_pos (h : shape.Checked operand geometry) {bytes : Nat} (hbytes : shape.bytes = .ok bytes) : 0 < bytes := by
  rw [h.bytes_eq hbytes]
  exact Nat.mul_pos (Nat.mul_pos h.bits_pos h.paddedRows_pos) h.rowBytes_pos

theorem planeBytes_total (h : shape.Checked operand geometry) {bytes : Nat} (hbytes : shape.bytes = .ok bytes) :
    shape.planeBytes = .ok (shape.paddedRows * shape.rowBytes) := by
  simp only [OperandShape.bytes, OperandShape.words, bind_eq_ok_iff, Word64.mul_eq_ok_iff] at hbytes
  obtain ⟨_, ⟨words, hwords, _, rfl⟩, hfits, _⟩ := hbytes
  have hle : words * wordBytes ≤ words * shape.bits * wordBytes :=
    Nat.mul_le_mul_right _ (Nat.le_mul_of_pos_right _ h.bits_pos)
  have hplane : shape.planeBytes = .ok (words * wordBytes) :=
    bind_eq_ok_iff.mpr ⟨words, hwords, Word64.mul_eq_ok_iff.mpr ⟨Nat.lt_of_le_of_lt hle hfits, rfl⟩⟩
  rw [← h.planeBytes_eq hplane]
  exact hplane

end OperandShape.Checked

namespace TilePlan.Cuts

variable {plan : TilePlan} {geometry : Geometry} {gemm : Gemm}

theorem segmentBytes_eq (h : plan.Cuts geometry gemm) (operand : Operand) :
    (plan.operand operand).segmentBytes = .ok (plan.operand operand).segment := by
  apply Word64.div_eq_ok_iff.mpr
  constructor
  · rw [(h.tiling operand).dim]
    exact Nat.ne_of_gt (h.array.dim_pos operand)
  · rfl

theorem commonTiles_mul_segment (h : plan.Cuts geometry gemm) (operand : Operand) :
    plan.commonTiles * (plan.operand operand).segment = (gemm.operand operand).rowBytes :=
  h.segments (h.segmentBytes_eq operand)

/-- Both operands are cut into segments of one length. -/
theorem segment_eq (h : plan.Cuts geometry gemm) (operand : Operand) :
    (plan.operand operand).segment = plan.lhs.segment := by
  have hrows : (gemm.operand operand).rowBytes = gemm.lhs.rowBytes := by
    rw [OperandShape.rowBytes, h.depth operand, OperandShape.rowBytes]
  have hlhs : plan.commonTiles * plan.lhs.segment = gemm.lhs.rowBytes := h.commonTiles_mul_segment .lhs
  rw [← h.commonTiles_mul_segment operand, ← hlhs] at hrows
  exact Nat.eq_of_mul_eq_mul_left h.commonTiles_pos hrows

theorem segment_pos (h : plan.Cuts geometry gemm) (operand : Operand) : 0 < (plan.operand operand).segment := by
  have hpos := (h.shape operand).rowBytes_pos
  rw [← h.commonTiles_mul_segment operand] at hpos
  exact Nat.pos_of_mul_pos_left hpos

theorem segment_le (h : plan.Cuts geometry gemm) (operand : Operand) :
    (plan.operand operand).segment ≤ (gemm.operand operand).rowBytes := by
  rw [← h.commonTiles_mul_segment operand]
  exact Nat.le_mul_of_pos_left _ h.commonTiles_pos

/-- A row of an operand has a byte for every stripe. -/
theorem bandStripes_le (h : plan.Cuts geometry gemm) {bytes : Nat} (hbytes : gemm.lhs.bytes = .ok bytes) :
    plan.bandStripes ≤ bytes := by
  have hshape := h.shape .lhs
  have hcommon : 8 ≤ geometry.commonDim := by
    have := h.array.commonDim_pos
    have := h.array.commonDim_bytes
    omega
  have hrow : plan.stripes ≤ gemm.lhs.rowBytes := by
    have hcols : 8 * gemm.lhs.rowBytes = plan.stripes * geometry.commonDim :=
      hshape.eight_mul_rowBytes.trans h.stripes.symm
    have := Nat.mul_le_mul_left plan.stripes hcommon
    omega
  calc plan.bandStripes ≤ plan.commonTiles * plan.bandStripes := Nat.le_mul_of_pos_left _ h.commonTiles_pos
    _ = plan.stripes := h.commonTiles
    _ ≤ gemm.lhs.rowBytes := hrow
    _ ≤ gemm.lhs.bits * gemm.lhs.paddedRows * gemm.lhs.rowBytes :=
        Nat.le_mul_of_pos_left _ (Nat.mul_pos hshape.bits_pos hshape.paddedRows_pos)
    _ = bytes := (hshape.bytes_eq hbytes).symm

end TilePlan.Cuts

/-- A tile of an operand: its plane, and its place among the tiles of the rows and of the common dimension. -/
structure TilePlace where
  plane : Nat
  rowTile : Nat
  common : Nat
  deriving DecidableEq, Repr

/-- A row of a tile of an operand. -/
structure TileRow extends TilePlace where
  row : Nat
  deriving DecidableEq, Repr

namespace Layout

variable (layout : Layout) (operand : Operand)

/-- The tiles that an operand has. -/
structure HasTile (tile : TilePlace) : Prop where
  plane : tile.plane < (layout.gemm.operand operand).bits
  rowTile : tile.rowTile < (layout.plan.operand operand).rowTiles
  common : tile.common < layout.plan.commonTiles

/-- The rows of tiles that an operand has. -/
structure HasRow (row : TileRow) : Prop extends layout.HasTile operand row.toTilePlace where
  row : row.row < (layout.plan.operand operand).tileRows

/-- The tile that a step of an output tile needs. -/
def neededTile (output step : Nat) : TilePlace :=
  let index := layout.nest.stepIndex step
  ⟨index.plane operand, layout.nest.rowTile operand output, index.common⟩

/-- The number of a row among all rows of all planes. -/
def packedRow (row : TileRow) : Nat :=
  row.plane * (layout.gemm.operand operand).paddedRows +
    (row.rowTile * (layout.plan.operand operand).tileRows + row.row)

/-- Where a row of a tile begins in the buffer of its operand. -/
def rowOffset (row : TileRow) : Nat :=
  layout.packedRow operand row * (layout.gemm.operand operand).rowBytes +
    row.common * (layout.plan.operand operand).segment

/-- A tile begins where its first row does. -/
def tileOffset (tile : TilePlace) : Nat := layout.rowOffset operand ⟨tile, 0⟩

/-- The row of a tile that a byte of an operand belongs to. -/
def rowAt (offset : Nat) : TileRow :=
  let shape := layout.gemm.operand operand
  let tiling := layout.plan.operand operand
  { plane := offset / shape.rowBytes / shape.paddedRows
    rowTile := offset / shape.rowBytes % shape.paddedRows / tiling.tileRows
    common := offset % shape.rowBytes / tiling.segment
    row := offset / shape.rowBytes % shape.paddedRows % tiling.tileRows }

variable {layout} {operand}

theorem rowOffset_eq (row : TileRow) :
    layout.rowOffset operand row =
      layout.tileOffset operand row.toTilePlace + row.row * (layout.gemm.operand operand).rowBytes := by
  unfold tileOffset rowOffset packedRow
  dsimp only
  rw [Nat.add_zero, ← Nat.add_assoc, Nat.add_mul _ row.row, Nat.add_right_comm]

theorem rowOffset_add (row : TileRow) (position : Nat) :
    layout.rowOffset operand row + position =
      layout.packedRow operand row * (layout.gemm.operand operand).rowBytes +
        (row.common * (layout.plan.operand operand).segment + position) :=
  Nat.add_assoc _ _ _

theorem tileOffset_eq (tile : TilePlace) :
    layout.tileOffset operand tile =
      tile.plane * ((layout.gemm.operand operand).paddedRows * (layout.gemm.operand operand).rowBytes) +
        tile.rowTile * (layout.plan.operand operand).tileRows * (layout.gemm.operand operand).rowBytes +
          tile.common * (layout.plan.operand operand).segment := by
  unfold tileOffset rowOffset packedRow
  dsimp only
  rw [Nat.add_zero, Nat.add_mul, Nat.mul_assoc tile.plane]

namespace HasRow

variable {row : TileRow}

theorem tileRow_lt (h : layout.HasRow operand row) (hcuts : layout.plan.Cuts layout.geometry layout.gemm) :
    row.rowTile * (layout.plan.operand operand).tileRows + row.row < (layout.gemm.operand operand).paddedRows :=
  Nat.lt_of_lt_of_le (Nat.add_lt_add_left h.row _) (hcuts.tile_end operand h.rowTile)

theorem packedRow_lt (h : layout.HasRow operand row) (hcuts : layout.plan.Cuts layout.geometry layout.gemm) :
    layout.packedRow operand row < (layout.gemm.operand operand).bits * (layout.gemm.operand operand).paddedRows :=
  mul_add_lt_mul h.plane (h.tileRow_lt hcuts)

theorem column_lt (h : layout.HasRow operand row) (hcuts : layout.plan.Cuts layout.geometry layout.gemm)
    {position : Nat} (hposition : position < (layout.plan.operand operand).segment) :
    row.common * (layout.plan.operand operand).segment + position < (layout.gemm.operand operand).rowBytes := by
  rw [← hcuts.commonTiles_mul_segment operand]
  exact mul_add_lt_mul h.common hposition

/-- The digits of a byte of a row say which row it is. -/
theorem rowAt_eq (h : layout.HasRow operand row) (hcuts : layout.plan.Cuts layout.geometry layout.gemm)
    {position : Nat} (hposition : position < (layout.plan.operand operand).segment) :
    layout.rowAt operand (layout.rowOffset operand row + position) = row := by
  have hcolumn := div_mod_of_lt (layout.packedRow operand row) (h.column_lt hcuts hposition)
  have hplane := div_mod_of_lt row.plane (h.tileRow_lt hcuts)
  unfold rowAt
  simp only [rowOffset_add, hcolumn]
  simp only [packedRow, hplane, div_mod_of_lt _ h.row, div_mod_of_lt _ hposition]

theorem end_le (h : layout.HasRow operand row) (hcuts : layout.plan.Cuts layout.geometry layout.gemm) {bytes : Nat}
    (hbytes : (layout.gemm.operand operand).bytes = .ok bytes) :
    layout.rowOffset operand row + (layout.plan.operand operand).segment ≤ bytes := by
  have hsegment := hcuts.segment_pos operand
  have hlast := h.column_lt hcuts (Nat.sub_one_lt (Nat.ne_of_gt hsegment))
  have hpacked := mul_add_lt_mul (h.packedRow_lt hcuts) hlast
  rw [← rowOffset_add, ← (hcuts.shape operand).bytes_eq hbytes] at hpacked
  omega

end HasRow

theorem HasTile.row_zero {tile : TilePlace} (h : layout.HasTile operand tile)
    (hcuts : layout.plan.Cuts layout.geometry layout.gemm) : layout.HasRow operand ⟨tile, 0⟩ :=
  ⟨h, (hcuts.tiling operand).tileRows_pos⟩

/-- No two tiles begin at the same place. -/
theorem HasTile.offset_injective (hcuts : layout.plan.Cuts layout.geometry layout.gemm) {first second : TilePlace}
    (hfirst : layout.HasTile operand first) (hsecond : layout.HasTile operand second)
    (h : layout.tileOffset operand first = layout.tileOffset operand second) : first = second := by
  have hsegment := hcuts.segment_pos operand
  have hrow := (hfirst.row_zero hcuts).rowAt_eq hcuts hsegment
  change layout.rowAt operand (layout.tileOffset operand first + 0) = _ at hrow
  rw [h] at hrow
  exact congrArg TileRow.toTilePlace (hrow.symm.trans ((hsecond.row_zero hcuts).rowAt_eq hcuts hsegment))

/-- Every byte of an operand belongs to a row of a tile. -/
theorem hasRow_rowAt (hcuts : layout.plan.Cuts layout.geometry layout.gemm) {bytes offset : Nat}
    (hbytes : (layout.gemm.operand operand).bytes = .ok bytes) (hoffset : offset < bytes) :
    layout.HasRow operand (layout.rowAt operand offset) := by
  have hrowTiles := (hcuts.tiling operand).rowTiles
  have hcommonTiles := hcuts.commonTiles_mul_segment operand
  rw [(hcuts.shape operand).bytes_eq hbytes] at hoffset
  refine ⟨⟨?_, ?_, ?_⟩, ?_⟩
  · apply Nat.div_lt_of_lt_mul
    apply Nat.div_lt_of_lt_mul
    rw [Nat.mul_comm, Nat.mul_comm _ (layout.gemm.operand operand).bits]
    exact hoffset
  · apply Nat.div_lt_of_lt_mul
    rw [Nat.mul_comm, hrowTiles]
    exact Nat.mod_lt _ (hcuts.shape operand).paddedRows_pos
  · apply Nat.div_lt_of_lt_mul
    rw [Nat.mul_comm, hcommonTiles]
    exact Nat.mod_lt _ (hcuts.shape operand).rowBytes_pos
  · exact Nat.mod_lt _ (hcuts.tiling operand).tileRows_pos

/-- A byte is in the row that its digits say. -/
theorem rowOffset_rowAt (operand : Operand) (offset : Nat) :
    layout.rowOffset operand (layout.rowAt operand offset) +
      offset % (layout.gemm.operand operand).rowBytes % (layout.plan.operand operand).segment = offset := by
  have hpacked : layout.packedRow operand (layout.rowAt operand offset) =
      offset / (layout.gemm.operand operand).rowBytes := by
    unfold packedRow rowAt
    dsimp only
    rw [Nat.div_add_mod', Nat.div_add_mod']
  have hcommon : (layout.rowAt operand offset).common =
      offset % (layout.gemm.operand operand).rowBytes / (layout.plan.operand operand).segment := rfl
  rw [rowOffset_add, hpacked, hcommon, Nat.div_add_mod', Nat.div_add_mod']

/-- The address of a tile is the offset of its first row, from where the buffer is. -/
theorem tileAddress_eq (hcuts : layout.plan.Cuts layout.geometry layout.gemm) {tile : TilePlace} {address : Nat}
    (h : layout.tileAddress operand tile.plane tile.rowTile tile.common = .ok address) :
    address = layout.addresses.operand operand + layout.tileOffset operand tile := by
  simp only [tileAddress, hcuts.segmentBytes_eq, bind_eq_ok_iff, Word64.mul_eq_ok_iff, Word64.add_eq_ok_iff,
    Except.ok.injEq, exists_eq_left'] at h
  obtain ⟨planeBytes, hplaneBytes, _, ⟨_, rfl⟩, _, ⟨_, rfl⟩, _, ⟨_, rfl⟩, _, ⟨_, rfl⟩, _, ⟨_, rfl⟩, _, ⟨_, rfl⟩, _,
    rfl⟩ := h
  rw [(hcuts.shape operand).planeBytes_eq hplaneBytes, tileOffset_eq]

/-- Every tile of an operand has an address, if its buffer ends before the last one. -/
theorem HasTile.address {tile : TilePlace} (h : layout.HasTile operand tile)
    (hcuts : layout.plan.Cuts layout.geometry layout.gemm) {bytes : Nat}
    (hbytes : (layout.gemm.operand operand).bytes = .ok bytes)
    (hroom : layout.addresses.operand operand + bytes < Word64.size) :
    layout.tileAddress operand tile.plane tile.rowTile tile.common =
      .ok (layout.addresses.operand operand + layout.tileOffset operand tile) := by
  have hshape := hcuts.shape operand
  have hend := (h.row_zero hcuts).end_le hcuts hbytes
  change layout.tileOffset operand tile + _ ≤ bytes at hend
  rw [tileOffset_eq] at hend ⊢
  -- every product on the way is one of the summands, or a factor of one
  have hrowTile : tile.rowTile * (layout.plan.operand operand).tileRows ≤
      tile.rowTile * (layout.plan.operand operand).tileRows * (layout.gemm.operand operand).rowBytes :=
    Nat.le_mul_of_pos_right _ hshape.rowBytes_pos
  simp only [tileAddress, hshape.planeBytes_total hbytes, hcuts.segmentBytes_eq, bind_eq_ok_iff,
    Word64.mul_eq_ok_iff, Word64.add_eq_ok_iff, Except.ok.injEq, exists_eq_left']
  exact ⟨_, ⟨by omega, rfl⟩, _, ⟨by omega, rfl⟩, _, ⟨by omega, rfl⟩, _, ⟨by omega, rfl⟩, _, ⟨by omega, rfl⟩, _,
    ⟨by omega, rfl⟩, by omega, rfl⟩

theorem hasTile_needed {output step : Nat} (houtput : output < layout.nest.outputCount)
    (hstep : step < layout.nest.stepCount) : layout.HasTile operand (layout.neededTile operand output step) := by
  obtain ⟨hlhsTile, hrhsTile⟩ := LoopNest.rowTile_lt houtput
  obtain ⟨hlhsPlane, hrhsPlane, hcommon⟩ := LoopNest.stepIndex_lt hstep
  cases operand with
  | lhs => exact ⟨hlhsPlane, hlhsTile, hcommon⟩
  | rhs => exact ⟨hrhsPlane, hrhsTile, hcommon⟩

/-- Every tile that the operand has is needed by some step. -/
theorem HasTile.needed {tile : TilePlace} (h : layout.HasTile operand tile)
    (hcuts : layout.plan.Cuts layout.geometry layout.gemm) :
    ∃ output < layout.nest.outputCount, ∃ step < layout.nest.stepCount,
      layout.neededTile operand output step = tile := by
  have hcommon : tile.common < layout.nest.commonTiles := h.common
  cases operand with
  | lhs =>
    have hrhsTile : 0 < layout.nest.rhsTiles := hcuts.rowTiles_pos .rhs
    have hrhsPlane : 0 < layout.nest.rhsPlanes := (hcuts.shape .rhs).bits_pos
    refine ⟨tile.rowTile * layout.nest.rhsTiles + 0, mul_add_lt_mul h.rowTile hrhsTile,
      (tile.plane * layout.nest.rhsPlanes + 0) * layout.nest.commonTiles + tile.common,
      mul_add_lt_mul (mul_add_lt_mul h.plane hrhsPlane) hcommon, ?_⟩
    simp only [neededTile, LoopNest.stepIndex_eq hrhsPlane hcommon, LoopNest.rowTile, LoopNest.rowTile_eq hrhsTile,
      StepIndex.plane]
  | rhs =>
    have hlhsTile : 0 < layout.nest.lhsTiles := hcuts.rowTiles_pos .lhs
    have hlhsPlane : 0 < layout.nest.lhsPlanes := (hcuts.shape .lhs).bits_pos
    have hrhsTile : tile.rowTile < layout.nest.rhsTiles := h.rowTile
    have hrhsPlane : tile.plane < layout.nest.rhsPlanes := h.plane
    refine ⟨0 * layout.nest.rhsTiles + tile.rowTile, mul_add_lt_mul hlhsTile hrhsTile,
      (0 * layout.nest.rhsPlanes + tile.plane) * layout.nest.commonTiles + tile.common,
      mul_add_lt_mul (mul_add_lt_mul hlhsPlane hrhsPlane) hcommon, ?_⟩
    simp only [neededTile, LoopNest.stepIndex_eq hrhsPlane hcommon, LoopNest.rowTile, LoopNest.rowTile_eq hrhsTile,
      StepIndex.plane]

theorem neededAddress_eq (hcuts : layout.plan.Cuts layout.geometry layout.gemm) {output step address : Nat}
    (h : layout.neededAddress operand output step = .ok address) :
    address = layout.addresses.operand operand + layout.tileOffset operand (layout.neededTile operand output step) :=
  tileAddress_eq hcuts h

/-- A tile that a step needs begins within the buffer of its operand. -/
theorem neededAddress_le (hcuts : layout.plan.Cuts layout.geometry layout.gemm) {bytes : Nat}
    (hbytes : (layout.gemm.operand operand).bytes = .ok bytes) {output step address : Nat}
    (houtput : output < layout.nest.outputCount) (hstep : step < layout.nest.stepCount)
    (h : layout.neededAddress operand output step = .ok address) :
    address ≤ layout.addresses.operand operand + bytes := by
  have hend := ((hasTile_needed houtput hstep).row_zero hcuts).end_le hcuts hbytes
  rw [neededAddress_eq hcuts h]
  exact Nat.add_le_add_left (Nat.le_of_add_right_le hend) _

end Layout

/-- A product with several tiles in every direction: the right operand has one plane of three row tiles, the left one two
planes of two, and both have two tiles along the common dimension. -/
def tiledLayout : Layout where
  geometry := { Geometry.reference with commonDim := 64, lhsDim := 2, rhsDim := 2, lhsEntries := 16, rhsEntries := 16 }
  gemm := ⟨⟨3, 4, 1000, 1024, 2, true⟩, ⟨5, 6, 1000, 1024, 1, false⟩⟩
  plan := {
    lhs := ⟨2, 16, 8, 8, 128, 1, 128, 2, 2, 8, .hardware⟩
    rhs := ⟨2, 16, 8, 8, 128, 1, 128, 2, 3, 6, .hardware⟩
    stripes := 16
    bandStripes := 8
    commonTiles := 2 }
  addresses := ⟨0x10000000, 0x10000400, 0x10000700⟩

theorem tiledLayout_plan : TilePlan.ofGemm tiledLayout.geometry tiledLayout.gemm = .ok tiledLayout.plan :=
  toOption_eq_some_iff.mp (by decide +kernel)

theorem tiledLayout_small (operand : Operand) :
    ∃ bytes, (tiledLayout.gemm.operand operand).bytes = .ok bytes ∧ bytes < Word32.size := by
  cases operand with
  | lhs => exact ⟨1024, toOption_eq_some_iff.mp (by decide +kernel), by decide⟩
  | rhs => exact ⟨768, toOption_eq_some_iff.mp (by decide +kernel), by decide⟩

end BitSerial
