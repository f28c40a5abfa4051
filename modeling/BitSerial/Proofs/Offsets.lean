import BitSerial.Proofs.Cutting
import BitSerial.Proofs.Positions

/-! # Where tiles lie

The tiles of an operand lie within its buffer, and so does the first element of each output tile within the result. An
address of a tile is the address of its buffer and an offset that does not depend on where the buffer is.
-/

namespace BitSerial

namespace LoopNest

variable {nest : LoopNest} {output step : Nat}

theorem rowTile_lt (houtput : output < nest.outputCount) :
    nest.rowTile .lhs output < nest.lhsTiles ∧ nest.rowTile .rhs output < nest.rhsTiles :=
  ⟨Nat.div_lt_of_lt_mul (Nat.mul_comm _ _ ▸ houtput),
    Nat.mod_lt _ (Nat.pos_of_mul_pos_left (Nat.zero_lt_of_lt houtput))⟩

theorem stepIndex_lt (hstep : step < nest.stepCount) :
    (nest.stepIndex step).plane .lhs < nest.lhsPlanes ∧ (nest.stepIndex step).plane .rhs < nest.rhsPlanes ∧
      (nest.stepIndex step).common < nest.commonTiles := by
  have hpos := Nat.zero_lt_of_lt hstep
  refine ⟨?_, Nat.mod_lt _ ?_, Nat.mod_lt _ (Nat.pos_of_mul_pos_left hpos)⟩
  · change step / nest.commonTiles / nest.rhsPlanes < nest.lhsPlanes
    rw [Nat.div_div_eq_div_mul]
    refine Nat.div_lt_of_lt_mul ?_
    rw [Nat.mul_comm, Nat.mul_comm nest.commonTiles, ← Nat.mul_assoc]
    exact hstep
  · exact Nat.pos_of_mul_pos_left (Nat.pos_of_mul_pos_right hpos)

end LoopNest

namespace TilePlan.Cuts

variable {plan : TilePlan} {geometry : Geometry} {gemm : Gemm}

/-- The rows of an operand are whole segments. -/
theorem segments (h : plan.Cuts geometry gemm) {operand : Operand} {segment : Nat}
    (hsegment : (plan.operand operand).segmentBytes = .ok segment) :
    plan.commonTiles * segment = (gemm.operand operand).rowBytes := by
  obtain ⟨_, rfl⟩ := Word64.div_eq_ok_iff.mp hsegment
  have htiling := h.tiling operand
  obtain ⟨bytes, hbytes⟩ := Nat.dvd_of_mod_eq_zero h.array.commonDim_bytes
  have hstripes := h.stripes
  have hstripe : geometry.stripeBytes operand = geometry.dim operand * bytes := by
    rw [Geometry.stripeBytes, hbytes, Nat.mul_left_comm, Nat.mul_div_cancel_left _ (by decide)]
  rw [htiling.bandBytes, htiling.dim, hstripe, Nat.mul_assoc, Nat.mul_div_cancel_left _ (h.array.dim_pos operand),
    OperandShape.rowBytes, h.depth operand, ← hstripes, hbytes, ← h.commonTiles, Nat.mul_left_comm _ 8,
    Nat.mul_div_cancel_left _ (by decide), Nat.mul_comm bytes, Nat.mul_assoc]

theorem outputCount_pos (h : plan.Cuts geometry gemm) : 0 < (plan.loopNest gemm).outputCount :=
  Nat.mul_pos (h.rowTiles_pos .lhs) (h.rowTiles_pos .rhs)

theorem stepCount_pos (h : plan.Cuts geometry gemm) : 0 < (plan.loopNest gemm).stepCount :=
  Nat.mul_pos (Nat.mul_pos (h.shape .lhs).bits_pos (h.shape .rhs).bits_pos) h.commonTiles_pos

end TilePlan.Cuts

namespace Layout

variable {layout : Layout} {operand : Operand}

/-- The same product with its buffers at address zero. -/
def atZero (layout : Layout) : Layout := { layout with addresses := ⟨0, 0, 0⟩ }

/-- The address of a tile is the offset that it has in a buffer at address zero, from where the buffer is. -/
theorem tileAddress_of_atZero {plane rowTile common offset : Nat}
    (h : layout.atZero.tileAddress operand plane rowTile common = .ok offset)
    (hfits : layout.addresses.operand operand + offset < Word64.size) :
    layout.tileAddress operand plane rowTile common = .ok (layout.addresses.operand operand + offset) := by
  simp only [tileAddress, bind_eq_ok_iff, Word64.add_eq_ok_iff] at h ⊢
  obtain ⟨planeBytes, hplaneBytes, planeOffset, hplane, row, hrow, rowOffset, hrowOffset, segment, hsegment,
    commonOffset, hcommon, before, hbefore, found, hfound, _, rfl⟩ := h
  refine ⟨planeBytes, hplaneBytes, planeOffset, hplane, row, hrow, rowOffset, hrowOffset, segment, hsegment,
    commonOffset, hcommon, before, hbefore, found, hfound, ?_, ?_⟩
  · cases operand <;> simpa [atZero, Addresses.operand] using hfits
  · cases operand <;> simp [atZero, Addresses.operand]

/-- The first element of an output tile is within the result. -/
theorem resultCommand_address_le (hcuts : layout.plan.Cuts layout.geometry layout.gemm) {bytes : Nat}
    (hbytes : layout.gemm.resultBytes = .ok bytes) {output : Nat} (houtput : output < layout.nest.outputCount)
    {command : ResultCommand} (h : layout.resultCommand output = .ok command) :
    command.address ≤ layout.addresses.result + bytes := by
  obtain rfl := Gemm.resultBytes_eq hbytes
  rw [resultCommand_eq h]
  obtain ⟨hlhsTile, hrhsTile⟩ := LoopNest.rowTile_lt houtput
  have hcol : layout.nest.lhsTile output * layout.plan.lhs.tileRows + layout.plan.lhs.tileRows ≤
      layout.gemm.lhs.paddedRows := hcuts.tile_end .lhs hlhsTile
  have hrow : layout.nest.rhsTile output * layout.plan.rhs.tileRows + layout.plan.rhs.tileRows ≤
      layout.gemm.rhs.paddedRows := hcuts.tile_end .rhs hrhsTile
  have hrhsPos := (hcuts.tiling .rhs).tileRows_pos
  refine Nat.add_le_add_left (Nat.mul_le_mul_right elementBytes ?_) _
  have hend := Nat.mul_le_mul_right layout.gemm.lhs.paddedRows (Nat.le_trans (Nat.add_le_add_left hrhsPos _) hrow)
  rw [Nat.succ_mul] at hend
  rw [Nat.mul_comm layout.gemm.lhs.paddedRows]
  omega

/-- The address of an output tile, too, is the offset that it has in a buffer at address zero. -/
theorem resultCommand_of_atZero {output : Nat} {command : ResultCommand}
    (h : layout.atZero.resultCommand output = .ok command)
    (hfits : layout.addresses.result + command.address < Word64.size) :
    layout.resultCommand output = .ok { command with address := layout.addresses.result + command.address } := by
  simp only [resultCommand, bind_eq_ok_iff, pure_eq_ok_iff, Word64.add_eq_ok_iff] at h ⊢
  obtain ⟨lhsRow, hlhsRow, rhsRow, hrhsRow, rowOffset, hrowOffset, element, helement, offset, hoffset, address,
    ⟨_, rfl⟩, stride, hstride, rfl⟩ := h
  refine ⟨lhsRow, hlhsRow, rhsRow, hrhsRow, rowOffset, hrowOffset, element, helement, offset, hoffset,
    layout.addresses.result + offset, ⟨?_, rfl⟩, stride, hstride, ?_⟩
  · simpa [atZero] using hfits
  · simp [atZero]

end Layout

end BitSerial
