import Mathlib.Tactic.Ring
import BitSerial.Proofs.Placement

/-! # Which products can be cut

A plan is a list of demands and a few divisions. If the packed operands are not too large to be counted in bytes, no
quantity on the way to a plan overflows, and the demands that come after the division of the rows are met by themselves:
a tile holds a band, the bytes of an operand are whole tiles, and the tiles leave no gap. What is left are conditions on
the array and on the shapes, and they are exactly what it takes.
-/

namespace BitSerial

open Failure

/-- What it takes to cut a product for an array. -/
structure Gemm.Tileable (gemm : Gemm) (geometry : Geometry) : Prop where
  array : geometry.check = .ok ()
  shapes : gemm.check geometry = .ok ()
  slots : ∀ operand, 1 ≤ geometry.slotStripes operand
  shift : (gemm.lhs.bits - 1) + (gemm.rhs.bits - 1) ≤ geometry.maxShift
  bands : gemm.bandStripes geometry ∣ gemm.stripes geometry
  rows : ∀ operand, gemm.tileBands geometry operand * geometry.dim operand ∣ (gemm.operand operand).paddedRows

namespace OperandShape.Checked

variable {shape : OperandShape} {operand : Operand} {geometry : Geometry}

theorem exactBytes_eq (h : shape.Checked operand geometry) :
    shape.exactBytes = shape.bits * shape.paddedRows * shape.rowBytes := by
  rw [exactBytes, Nat.mul_right_comm _ _ shape.bits, Nat.mul_assoc, h.rowWords_mul, Nat.mul_comm shape.bits]

/-- The rows of one plane are among the bytes of an operand. -/
theorem plane_le (h : shape.Checked operand geometry) :
    shape.paddedRows * shape.rowBytes ≤ shape.exactBytes := by
  rw [h.exactBytes_eq, Nat.mul_assoc]
  exact Nat.le_mul_of_pos_left _ h.bits_pos

theorem exactBytes_pos (h : shape.Checked operand geometry) : 0 < shape.exactBytes :=
  Nat.lt_of_lt_of_le (Nat.mul_pos h.paddedRows_pos h.rowBytes_pos) h.plane_le

theorem bytes_total (h : shape.Checked operand geometry) (hsize : shape.exactBytes < Word64.size) :
    shape.bytes = .ok shape.exactBytes := by
  have hwords : shape.paddedRows * shape.rowWords * shape.bits ≤ shape.exactBytes :=
    Nat.le_mul_of_pos_right _ (by decide)
  have hplane : shape.paddedRows * shape.rowWords ≤ shape.paddedRows * shape.rowWords * shape.bits :=
    Nat.le_mul_of_pos_right _ h.bits_pos
  simp only [bytes, words, planeWords, bind_eq_ok_iff, Word64.mul_eq_ok_iff]
  exact ⟨_, ⟨_, ⟨by omega, rfl⟩, by omega, rfl⟩, hsize, rfl⟩

end OperandShape.Checked

theorem Gemm.stripes_pos {gemm : Gemm} {geometry : Geometry} (harray : geometry.Checked)
    (hshape : gemm.lhs.Checked .lhs geometry) : 0 < gemm.stripes geometry :=
  Nat.div_pos (Nat.le_of_dvd hshape.paddedCols_pos (Nat.dvd_of_mod_eq_zero hshape.paddedCols_dim)) harray.commonDim_pos

theorem Gemm.bandStripes_pos {gemm : Gemm} {geometry : Geometry} (harray : geometry.Checked)
    (hshape : gemm.lhs.Checked .lhs geometry) (hslots : ∀ operand, 1 ≤ geometry.slotStripes operand) :
    0 < gemm.bandStripes geometry := by
  have hlhs := hslots .lhs
  have hrhs := hslots .rhs
  have hstripes := Gemm.stripes_pos harray hshape
  unfold bandStripes
  omega

/-- What is known of a product when its operands are cut: the array and the shapes were checked, and the bands were
measured. -/
structure Gemm.Measured (gemm : Gemm) (geometry : Geometry) : Prop where
  array : geometry.Checked
  shape : ∀ operand, (gemm.operand operand).Checked operand geometry
  depth : ∀ operand, (gemm.operand operand).paddedCols = gemm.lhs.paddedCols
  slots : ∀ operand, 1 ≤ geometry.slotStripes operand
  bands : gemm.bandStripes geometry ∣ gemm.stripes geometry

namespace Gemm.Measured

variable {gemm : Gemm} {geometry : Geometry} (h : gemm.Measured geometry) (operand : Operand)

include h

theorem stripes_mul : gemm.stripes geometry * geometry.commonDim = gemm.lhs.paddedCols :=
  Nat.div_mul_cancel (Nat.dvd_of_mod_eq_zero (h.shape .lhs).paddedCols_dim)

theorem bandStripes_pos : 0 < gemm.bandStripes geometry :=
  Gemm.bandStripes_pos h.array (h.shape .lhs) h.slots

theorem commonTiles_pos : 0 < gemm.stripes geometry / gemm.bandStripes geometry :=
  Nat.div_pos (Nat.le_of_dvd (Gemm.stripes_pos h.array (h.shape .lhs)) h.bands) h.bandStripes_pos

theorem planeBands_mul :
    (gemm.operand operand).paddedRows / geometry.dim operand * geometry.dim operand =
      (gemm.operand operand).paddedRows :=
  Nat.div_mul_cancel (Nat.dvd_of_mod_eq_zero (h.shape operand).paddedRows_dim)

/-- A tile holds a band: a slot has room for one, and a plane has one. -/
theorem tileBands_pos : 0 < gemm.tileBands geometry operand := by
  have hslot : 0 < geometry.slotStripes operand / gemm.bandStripes geometry :=
    Nat.div_pos (gemm.bandStripes_le geometry operand) h.bandStripes_pos
  have hplane : 0 < (gemm.operand operand).paddedRows / geometry.dim operand := by
    have hrows := (h.shape operand).paddedRows_pos
    rw [← h.planeBands_mul operand] at hrows
    exact Nat.pos_of_mul_pos_right hrows
  unfold tileBands
  omega

theorem tileRows_pos : 0 < gemm.tileRows geometry operand :=
  Nat.mul_pos (h.tileBands_pos operand) (h.array.dim_pos operand)

theorem tileRows_le : gemm.tileRows geometry operand ≤ (gemm.operand operand).paddedRows := by
  rw [← h.planeBands_mul operand]
  exact Nat.mul_le_mul_right _ (Nat.min_le_right _ _)

theorem stripeBytes_eq : geometry.stripeBytes operand = geometry.dim operand * (geometry.commonDim / 8) :=
  Nat.mul_div_assoc _ (Nat.dvd_of_mod_eq_zero h.array.commonDim_bytes)

/-- The bands along the common dimension make up the rows of an operand. -/
theorem bandBytes_mul :
    geometry.stripeBytes operand * gemm.bandStripes geometry * (gemm.stripes geometry / gemm.bandStripes geometry) =
      geometry.dim operand * (gemm.operand operand).rowBytes := by
  rw [Nat.mul_assoc, Nat.mul_div_cancel' h.bands, h.stripeBytes_eq, Nat.mul_assoc, OperandShape.rowBytes,
    h.depth operand, ← h.stripes_mul, Nat.mul_comm (gemm.stripes geometry),
    Nat.div_mul_right_comm (Nat.dvd_of_mod_eq_zero h.array.commonDim_bytes)]

/-- The rows of a tile have a segment each. -/
theorem tileBytes_eq : (gemm.tiling geometry operand).tileBytes =
    (gemm.tiling geometry operand).tileRows * (gemm.tiling geometry operand).segment := by
  have hdim : geometry.dim operand ∣ geometry.stripeBytes operand * gemm.bandStripes geometry := by
    rw [h.stripeBytes_eq, Nat.mul_assoc]
    exact Nat.dvd_mul_right _ _
  calc geometry.stripeBytes operand * gemm.bandStripes geometry * gemm.tileBands geometry operand
      = geometry.dim operand * (geometry.stripeBytes operand * gemm.bandStripes geometry / geometry.dim operand) *
          gemm.tileBands geometry operand := by rw [Nat.mul_div_cancel' hdim]
    _ = gemm.tileBands geometry operand * geometry.dim operand *
          (geometry.stripeBytes operand * gemm.bandStripes geometry / geometry.dim operand) := by
      rw [Nat.mul_comm, Nat.mul_assoc]

/-- The tiles of an operand are all of its bytes. -/
theorem tileCount_mul (hrows : gemm.tileRows geometry operand ∣ (gemm.operand operand).paddedRows) :
    (gemm.tiling geometry operand).tileCount * (gemm.tiling geometry operand).tileBytes =
      (gemm.operand operand).exactBytes := by
  have hbands := h.bandBytes_mul operand
  have hrowTiles := Nat.div_mul_cancel hrows
  unfold tileRows at hrowTiles
  rw [(h.shape operand).exactBytes_eq]
  unfold tiling tileRows
  dsimp only
  generalize (gemm.operand operand).paddedRows / (gemm.tileBands geometry operand * geometry.dim operand) = rowTiles
    at hrowTiles ⊢
  generalize gemm.stripes geometry / gemm.bandStripes geometry = commonTiles at hbands ⊢
  generalize geometry.stripeBytes operand * gemm.bandStripes geometry = bandBytes at hbands ⊢
  calc (gemm.operand operand).bits * rowTiles * commonTiles * (bandBytes * gemm.tileBands geometry operand)
      = (gemm.operand operand).bits * rowTiles * gemm.tileBands geometry operand * (bandBytes * commonTiles) := by ring
    _ = (gemm.operand operand).bits * (rowTiles * (gemm.tileBands geometry operand * geometry.dim operand)) *
          (gemm.operand operand).rowBytes := by rw [hbands]; ring
    _ = (gemm.operand operand).bits * (gemm.operand operand).paddedRows * (gemm.operand operand).rowBytes := by
      rw [hrowTiles]

theorem tileRows_le_bytes : gemm.tileRows geometry operand ≤ (gemm.operand operand).exactBytes := by
  calc gemm.tileRows geometry operand ≤ (gemm.operand operand).paddedRows := h.tileRows_le operand
    _ ≤ (gemm.operand operand).paddedRows * (gemm.operand operand).rowBytes :=
      Nat.le_mul_of_pos_right _ (h.shape operand).rowBytes_pos
    _ ≤ (gemm.operand operand).exactBytes := (h.shape operand).plane_le

/-- A band is as long as a row at most, and as high as a plane at most. -/
theorem bandBytes_le_bytes :
    geometry.stripeBytes operand * gemm.bandStripes geometry ≤ (gemm.operand operand).exactBytes := by
  have hdim : geometry.dim operand ≤ (gemm.operand operand).paddedRows :=
    Nat.le_of_dvd (h.shape operand).paddedRows_pos (Nat.dvd_of_mod_eq_zero (h.shape operand).paddedRows_dim)
  calc geometry.stripeBytes operand * gemm.bandStripes geometry
      ≤ geometry.stripeBytes operand * gemm.bandStripes geometry *
          (gemm.stripes geometry / gemm.bandStripes geometry) := Nat.le_mul_of_pos_right _ h.commonTiles_pos
    _ = geometry.dim operand * (gemm.operand operand).rowBytes := h.bandBytes_mul operand
    _ ≤ (gemm.operand operand).paddedRows * (gemm.operand operand).rowBytes := Nat.mul_le_mul_right _ hdim
    _ ≤ (gemm.operand operand).exactBytes := (h.shape operand).plane_le

/-- Cutting an operand comes down to one demand: the rows are whole tiles. -/
theorem ofOperand_eq (hsize : (gemm.operand operand).exactBytes < Word64.size) :
    Tiling.ofOperand geometry operand (gemm.operand operand) (gemm.bandStripes geometry)
        (gemm.stripes geometry / gemm.bandStripes geometry) = do
      demandShape ((gemm.operand operand).paddedRows % gemm.tileRows geometry operand = 0)
        (.unevenTileRows operand (gemm.operand operand).paddedRows (gemm.tileRows geometry operand))
      return gemm.tiling geometry operand := by
  have htileRows := h.tileRows_pos operand
  have hrowsSize : gemm.tileRows geometry operand < Word64.size := Nat.lt_of_le_of_lt (h.tileRows_le_bytes operand) hsize
  have hbandSize : geometry.stripeBytes operand * gemm.bandStripes geometry < Word64.size :=
    Nat.lt_of_le_of_lt (h.bandBytes_le_bytes operand) hsize
  have htileBands : min (geometry.slotStripes operand / gemm.bandStripes geometry)
      ((gemm.operand operand).paddedRows / geometry.dim operand) = gemm.tileBands geometry operand := rfl
  have hrowsMul : Word64.mul (gemm.tileBands geometry operand) (geometry.dim operand) =
      .ok (gemm.tileRows geometry operand) := Word64.mul_eq_ok_iff.mpr ⟨hrowsSize, rfl⟩
  unfold Tiling.ofOperand
  dsimp only
  rw [lift_bind_of_ok (Word64.mul_eq_ok_iff.mpr ⟨hbandSize, rfl⟩),
    lift_bind_of_ok (Word64.div_eq_ok_iff.mpr ⟨Nat.ne_of_gt h.bandStripes_pos, rfl⟩),
    lift_bind_of_ok (Word64.div_eq_ok_iff.mpr ⟨Nat.ne_of_gt (h.array.dim_pos operand), rfl⟩), htileBands,
    bind_of_ok (demandCapability_of (Nat.ne_of_gt (h.tileBands_pos operand))), lift_bind_of_ok hrowsMul,
    lift_bind_of_ok (Word64.mod_eq_ok_iff.mpr ⟨Nat.ne_of_gt htileRows, rfl⟩)]
  refine bind_congr_ok fun _ hdemand => ?_
  -- from here on the rows are whole tiles, and the other demands are met
  have hrows := Nat.dvd_of_mod_eq_zero (demandShape_eq_ok_iff.mp hdemand)
  have hcount := h.tileCount_mul operand hrows
  have hpos : 0 < (gemm.tiling geometry operand).tileCount * (gemm.tiling geometry operand).tileBytes :=
    hcount ▸ (h.shape operand).exactBytes_pos
  have hbytesPos := Nat.pos_of_mul_pos_left hpos
  have hbytesSize : (gemm.tiling geometry operand).tileBytes < Word64.size :=
    Nat.lt_of_le_of_lt (Nat.le_mul_of_pos_left _ (Nat.pos_of_mul_pos_right hpos)) (hcount ▸ hsize)
  have hcountSize : (gemm.tiling geometry operand).tileCount < Word64.size :=
    Nat.lt_of_le_of_lt (Nat.le_mul_of_pos_right _ hbytesPos) (hcount ▸ hsize)
  have hbytesMul : Word64.mul (geometry.stripeBytes operand * gemm.bandStripes geometry)
      (gemm.tileBands geometry operand) = .ok (gemm.tiling geometry operand).tileBytes :=
    Word64.mul_eq_ok_iff.mpr ⟨hbytesSize, rfl⟩
  have hplaneTiles : Word64.mul (gemm.operand operand).bits
      ((gemm.operand operand).paddedRows / gemm.tileRows geometry operand) = .ok _ :=
    Word64.mul_eq_ok_iff.mpr ⟨Nat.lt_of_le_of_lt (Nat.le_mul_of_pos_right _ h.commonTiles_pos) hcountSize, rfl⟩
  have hexpected : Word64.mul ((gemm.operand operand).bits *
      ((gemm.operand operand).paddedRows / gemm.tileRows geometry operand))
      (gemm.stripes geometry / gemm.bandStripes geometry) = .ok (gemm.tiling geometry operand).tileCount :=
    Word64.mul_eq_ok_iff.mpr ⟨hcountSize, rfl⟩
  have hdiv : (gemm.operand operand).exactBytes / (gemm.tiling geometry operand).tileBytes =
      (gemm.tiling geometry operand).tileCount := by
    rw [← hcount, Nat.mul_div_cancel _ hbytesPos]
  rw [lift_bind_of_ok (Word64.div_eq_ok_iff.mpr ⟨Nat.ne_of_gt htileRows, rfl⟩), lift_bind_of_ok hbytesMul,
    lift_bind_of_ok ((h.shape operand).bytes_total hsize),
    lift_bind_of_ok (Word64.mod_eq_ok_iff.mpr ⟨Nat.ne_of_gt hbytesPos, rfl⟩),
    bind_of_ok (demandShape_of (Nat.mod_eq_zero_of_dvd (Dvd.intro_left _ hcount))),
    lift_bind_of_ok (Word64.div_eq_ok_iff.mpr ⟨Nat.ne_of_gt hbytesPos, rfl⟩), lift_bind_of_ok hplaneTiles,
    lift_bind_of_ok hexpected, hdiv, bind_of_ok (demandShape_of ⟨rfl, hcount⟩)]
  rfl

end Gemm.Measured

/-- The demands that a plan makes, in order. -/
theorem TilePlan.ofGemm_eq {geometry : Geometry} {gemm : Gemm}
    (hsize : ∀ operand, (gemm.operand operand).exactBytes < Word64.size)
    (hshift : (gemm.lhs.bits - 1) + (gemm.rhs.bits - 1) < Word32.size) :
    TilePlan.ofGemm geometry gemm = do
      geometry.check
      gemm.check geometry
      demandCapability (geometry.slotStripes .lhs ≠ 0 ∧ geometry.slotStripes .rhs ≠ 0)
        (.shallowMemories geometry.lhsEntries geometry.rhsEntries)
      demandCapability ((gemm.lhs.bits - 1) + (gemm.rhs.bits - 1) ≤ geometry.maxShift)
        (.shiftTooLarge gemm.lhs.bits gemm.rhs.bits ((gemm.lhs.bits - 1) + (gemm.rhs.bits - 1)) geometry.maxShift)
      demandShape (gemm.stripes geometry % gemm.bandStripes geometry = 0)
        (.unevenStripes (gemm.stripes geometry) (gemm.bandStripes geometry))
      demandShape (gemm.lhs.paddedRows % gemm.tileRows geometry .lhs = 0)
        (.unevenTileRows .lhs gemm.lhs.paddedRows (gemm.tileRows geometry .lhs))
      demandShape (gemm.rhs.paddedRows % gemm.tileRows geometry .rhs = 0)
        (.unevenTileRows .rhs gemm.rhs.paddedRows (gemm.tileRows geometry .rhs))
      return gemm.plan geometry := by
  unfold ofGemm
  refine bind_congr_ok fun _ hgeometry => bind_congr_ok fun _ hgemm => bind_congr_ok fun _ hslots => ?_
  have hlargest : largestShift gemm = .ok ((gemm.lhs.bits - 1) + (gemm.rhs.bits - 1)) :=
    Word32.add_eq_ok_iff.mpr ⟨hshift, rfl⟩
  rw [lift_bind_of_ok hlargest]
  refine bind_congr_ok fun _ _ => ?_
  have harray := Geometry.checked hgeometry
  obtain ⟨hshapes, hdepth⟩ := Gemm.checked hgemm
  have hslots := demandCapability_eq_ok_iff.mp hslots
  have hpositive (operand : Operand) : 1 ≤ geometry.slotStripes operand := by
    cases operand with
    | lhs => exact Nat.pos_of_ne_zero hslots.1
    | rhs => exact Nat.pos_of_ne_zero hslots.2
  have hstripes : Word64.div gemm.lhs.paddedCols geometry.commonDim = .ok (gemm.stripes geometry) :=
    Word64.div_eq_ok_iff.mpr ⟨Nat.ne_of_gt harray.commonDim_pos, rfl⟩
  have hband := Nat.ne_of_gt (Gemm.bandStripes_pos harray (hshapes .lhs) hpositive)
  have hbandStripes : min (min (geometry.slotStripes .lhs) (geometry.slotStripes .rhs)) (gemm.stripes geometry) =
    gemm.bandStripes geometry := rfl
  rw [lift_bind_of_ok hstripes, hbandStripes, lift_bind_of_ok (Word64.mod_eq_ok_iff.mpr ⟨hband, rfl⟩)]
  refine bind_congr_ok fun _ hbands => ?_
  have hmeasured : gemm.Measured geometry :=
    ⟨harray, hshapes, hdepth, hpositive, Nat.dvd_of_mod_eq_zero (demandShape_eq_ok_iff.mp hbands)⟩
  have hlhs := hmeasured.ofOperand_eq .lhs (hsize .lhs)
  have hrhs := hmeasured.ofOperand_eq .rhs (hsize .rhs)
  dsimp only [Gemm.operand] at hlhs hrhs
  rw [lift_bind_of_ok (Word64.div_eq_ok_iff.mpr ⟨hband, rfl⟩), hlhs, hrhs]
  simp only [bind_assoc, pure_bind]
  rfl

/-- A failure that a plan can have: a refusal, but none of the last three that cutting an operand could end with. -/
def Failure.Early : Failure → Prop
  | .fault _ => False
  | .refused (.capabilityMismatch (.emptyTile _)) => False
  | .refused (.unsupportedShape (.unevenTileBytes ..)) => False
  | .refused (.unsupportedShape (.tilingGap ..)) => False
  | .refused _ => True

/-- A failure to meet one of the demands that a plan makes of an array and of shapes. -/
def Failure.Demanded : Failure → Prop
  | .refused (.capabilityMismatch (.emptyTile _)) => False
  | .refused (.capabilityMismatch _) => True
  | .refused (.unsupportedShape (.unevenTileBytes ..)) => False
  | .refused (.unsupportedShape (.tilingGap ..)) => False
  | .refused (.unsupportedShape _) => True
  | _ => False

theorem Failure.Demanded.early {failure : Failure} (h : failure.Demanded) : failure.Early := by
  unfold Demanded at h
  split at h
  case h_2 defect hdefect =>
    cases defect with
    | emptyTile operand => exact hdefect operand rfl
    | _ => trivial
  case h_5 defect hbytes hgap =>
    cases defect with
    | unevenTileBytes operand bytes tileBytes => exact hbytes operand bytes tileBytes rfl
    | tilingGap operand tiles tileBytes expected bytes => exact hgap operand tiles tileBytes expected bytes rfl
    | _ => trivial
  all_goals exact h.elim

theorem Geometry.check_fails (geometry : Geometry) : Fails Failure.Demanded geometry.check :=
  .bind (.demandCapability trivial) fun _ _ => .bind (.demandCapability trivial) fun _ _ =>
    .bind (.demandCapability trivial) fun _ _ => .bind (.demandCapability trivial) fun _ _ =>
      .demandCapability trivial

theorem OperandShape.check_fails {geometry : Geometry} (harray : geometry.Checked) (shape : OperandShape)
    (operand : Operand) : Fails Failure.Demanded (shape.check operand geometry) := by
  have hdim := Nat.ne_of_gt (harray.dim_pos operand)
  have hcommon := Nat.ne_of_gt harray.commonDim_pos
  refine .bind (.demandShape trivial) fun _ _ => .bind (.demandShape trivial) fun _ _ =>
    .bind (.demandShape trivial) fun _ _ => ?_
  rw [lift_bind_of_ok (Word64.mod_eq_ok_iff.mpr ⟨hdim, rfl⟩)]
  refine .bind (.demandShape trivial) fun _ _ => ?_
  rw [lift_bind_of_ok (Word64.mod_eq_ok_iff.mpr ⟨hcommon, rfl⟩)]
  exact .bind (.demandShape trivial) fun _ _ => .demandShape trivial

theorem Gemm.check_fails {geometry : Geometry} (harray : geometry.Checked) (gemm : Gemm) :
    Fails Failure.Demanded (gemm.check geometry) :=
  .bind (gemm.lhs.check_fails harray .lhs) fun _ _ => .bind (gemm.rhs.check_fails harray .rhs) fun _ _ =>
    .demandShape trivial

/-- Without overflow a plan fails only for the conditions that it demands. -/
theorem TilePlan.ofGemm_demands {geometry : Geometry} {gemm : Gemm}
    (hsize : ∀ operand, (gemm.operand operand).exactBytes < Word64.size)
    (hshift : (gemm.lhs.bits - 1) + (gemm.rhs.bits - 1) < Word32.size) :
    Fails Failure.Demanded (TilePlan.ofGemm geometry gemm) := by
  rw [TilePlan.ofGemm_eq hsize hshift]
  refine .bind geometry.check_fails fun _ harray => .bind (gemm.check_fails (Geometry.checked harray)) fun _ _ => ?_
  exact .bind (.demandCapability trivial) fun _ _ => .bind (.demandCapability trivial) fun _ _ =>
    .bind (.demandShape trivial) fun _ _ => .bind (.demandShape trivial) fun _ _ =>
      .bind (.demandShape trivial) fun _ _ => .of_ok rfl

theorem TilePlan.ofGemm_fails {geometry : Geometry} {gemm : Gemm}
    (hsize : ∀ operand, (gemm.operand operand).exactBytes < Word64.size)
    (hshift : (gemm.lhs.bits - 1) + (gemm.rhs.bits - 1) < Word32.size) :
    Fails Failure.Early (TilePlan.ofGemm geometry gemm) :=
  fun failure h => (TilePlan.ofGemm_demands hsize hshift failure h).early

/-- How an accepted plan adds up. -/
structure TilePlan.AddsUp (plan : TilePlan) (gemm : Gemm) (stripes : Nat) : Prop where
  bands : plan.bandStripes * plan.commonTiles = stripes
  tileBytes : ∀ operand, ∃ segment, (plan.operand operand).segmentBytes = .ok segment ∧
    (plan.operand operand).tileBytes = (plan.operand operand).tileRows * segment
  rowTiles : ∀ operand, (plan.operand operand).tileRows * (plan.operand operand).rowTiles =
    (gemm.operand operand).paddedRows
  tileCount : ∀ operand, (plan.operand operand).tileCount =
    (gemm.operand operand).bits * (plan.operand operand).rowTiles * plan.commonTiles
  bytes : ∀ operand, (gemm.operand operand).bytes =
    .ok ((plan.operand operand).tileCount * (plan.operand operand).tileBytes)

namespace Gemm

variable {gemm : Gemm} {geometry : Geometry}

theorem Tileable.measured (h : gemm.Tileable geometry) : gemm.Measured geometry :=
  ⟨Geometry.checked h.array, (Gemm.checked h.shapes).1, (Gemm.checked h.shapes).2, h.slots, h.bands⟩

/-- The plan of a product that can be cut adds up. -/
theorem Tileable.addsUp (h : gemm.Tileable geometry)
    (hsize : ∀ operand, (gemm.operand operand).exactBytes < Word64.size) :
    (gemm.plan geometry).AddsUp gemm (gemm.stripes geometry) := by
  have hmeasured := h.measured
  constructor
  case bands => exact Nat.mul_div_cancel' h.bands
  case tileBytes =>
    intro operand
    rw [plan_operand]
    refine ⟨_, Word64.div_eq_ok_iff.mpr ⟨Nat.ne_of_gt (hmeasured.array.dim_pos operand), rfl⟩, ?_⟩
    exact hmeasured.tileBytes_eq operand
  case rowTiles =>
    intro operand
    rw [plan_operand]
    exact Nat.mul_div_cancel' (h.rows operand)
  case tileCount =>
    intro operand
    rw [plan_operand]
    rfl
  case bytes =>
    intro operand
    rw [plan_operand, hmeasured.tileCount_mul operand (h.rows operand)]
    exact (hmeasured.shape operand).bytes_total (hsize operand)

end Gemm

/-- The demands are met by the products that can be cut. -/
theorem TilePlan.ofGemm_eq_ok_iff {geometry : Geometry} {gemm : Gemm} {plan : TilePlan}
    (hsize : ∀ operand, (gemm.operand operand).exactBytes < Word64.size)
    (hshift : (gemm.lhs.bits - 1) + (gemm.rhs.bits - 1) < Word32.size) :
    TilePlan.ofGemm geometry gemm = .ok plan ↔ gemm.Tileable geometry ∧ plan = gemm.plan geometry := by
  simp only [TilePlan.ofGemm_eq hsize hshift, bind_eq_ok_iff, demandCapability_eq_ok_iff, demandShape_eq_ok_iff,
    pure_eq_ok_iff]
  constructor
  · rintro ⟨_, harray, _, hshapes, _, hslots, _, hmax, _, hbands, _, hlhs, _, hrhs, rfl⟩
    refine ⟨⟨harray, hshapes, ?_, hmax, Nat.dvd_of_mod_eq_zero hbands, ?_⟩, rfl⟩
    · rintro (_ | _)
      · exact Nat.pos_of_ne_zero hslots.1
      · exact Nat.pos_of_ne_zero hslots.2
    · rintro (_ | _)
      · exact Nat.dvd_of_mod_eq_zero hlhs
      · exact Nat.dvd_of_mod_eq_zero hrhs
  · rintro ⟨h, rfl⟩
    exact ⟨(), h.array, (), h.shapes, (), ⟨Nat.ne_of_gt (h.slots .lhs), Nat.ne_of_gt (h.slots .rhs)⟩, (), h.shift, (),
      Nat.mod_eq_zero_of_dvd h.bands, (), Nat.mod_eq_zero_of_dvd (h.rows .lhs), (),
      Nat.mod_eq_zero_of_dvd (h.rows .rhs), rfl⟩

/-- A product whose operands can be counted in bytes is accepted exactly when it can be cut. If it is not, one of the
conditions for that is named as the reason, and if it is, its plan adds up. -/
theorem plan_accepts {geometry : Geometry} {gemm : Gemm}
    (hsize : ∀ operand, (gemm.operand operand).exactBytes < Word64.size)
    (hshift : (gemm.lhs.bits - 1) + (gemm.rhs.bits - 1) < Word32.size) :
    ((∃ plan, TilePlan.ofGemm geometry gemm = .ok plan) ↔ gemm.Tileable geometry) ∧
      (∀ failure, TilePlan.ofGemm geometry gemm = .error failure → failure.Early) ∧
      ∀ plan, TilePlan.ofGemm geometry gemm = .ok plan → plan.AddsUp gemm (gemm.stripes geometry) := by
  refine ⟨⟨?_, fun h => ?_⟩, TilePlan.ofGemm_fails hsize hshift, fun plan h => ?_⟩
  · rintro ⟨plan, h⟩
    exact ((TilePlan.ofGemm_eq_ok_iff hsize hshift).mp h).1
  · exact ⟨gemm.plan geometry, (TilePlan.ofGemm_eq_ok_iff hsize hshift).mpr ⟨h, rfl⟩⟩
  · obtain ⟨hcut, rfl⟩ := (TilePlan.ofGemm_eq_ok_iff hsize hshift).mp h
    exact hcut.addsUp hsize

/-- The product with several tiles in every direction is accepted, so it can be cut. -/
theorem plan_accepts_tiled :
    tiledLayout.gemm.Tileable tiledLayout.geometry ∧
      tiledLayout.plan.AddsUp tiledLayout.gemm (tiledLayout.gemm.stripes tiledLayout.geometry) := by
  have hsize (operand : Operand) : (tiledLayout.gemm.operand operand).exactBytes < Word64.size := by
    cases operand <;> decide
  obtain ⟨haccepts, -, hplan⟩ := @plan_accepts tiledLayout.geometry tiledLayout.gemm hsize (by decide)
  exact ⟨haccepts.mp ⟨_, tiledLayout_plan⟩, hplan _ tiledLayout_plan⟩

end BitSerial
