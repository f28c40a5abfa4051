import BitSerial.Proofs.Acceptance

/-! # Which products are turned down

Cutting a product divides by quantities of the array and of the shapes, and adds up and multiplies others. The demands
come in an order that keeps every divisor positive and every product within the bytes of an operand. The one sum that no
demand guards is that of the highest planes: it is made in 32 bits before the array is asked for the shift.
-/

namespace BitSerial

open Failure

/-- The largest shift of a partial product, as a number without bound. -/
def Gemm.exactShift (gemm : Gemm) : Nat := (gemm.lhs.bits - 1) + (gemm.rhs.bits - 1)

/-- What is asked of a product before its shift is. -/
structure Gemm.Screened (gemm : Gemm) (geometry : Geometry) : Prop where
  array : geometry.check = .ok ()
  shapes : gemm.check geometry = .ok ()
  slots : ∀ operand, 1 ≤ geometry.slotStripes operand

theorem Gemm.Screened.slots_ne_zero {gemm : Gemm} {geometry : Geometry} (h : gemm.Screened geometry) :
    geometry.slotStripes .lhs ≠ 0 ∧ geometry.slotStripes .rhs ≠ 0 :=
  ⟨Nat.ne_of_gt (h.slots .lhs), Nat.ne_of_gt (h.slots .rhs)⟩

/-- The shift of two operands of so many planes exceeds what the array supports. -/
def Gemm.shiftTooLarge (gemm : Gemm) (geometry : Geometry) : Failure :=
  .refused (.capabilityMismatch (.shiftTooLarge gemm.lhs.bits gemm.rhs.bits gemm.exactShift geometry.maxShift))

namespace TilePlan

variable {geometry : Geometry} {gemm : Gemm}

/-- A shift past the 32-bit words is a fault for every product that comes as far as its shift. -/
theorem ofGemm_of_overshift (h : gemm.Screened geometry) (hover : Word32.size ≤ gemm.exactShift) :
    ofGemm geometry gemm = .error (.fault .overflow) := by
  have hlargest : largestShift gemm = .error .overflow := if_neg (Nat.not_lt.mpr hover)
  unfold ofGemm
  rw [bind_of_ok h.array, bind_of_ok h.shapes, bind_of_ok (demandCapability_of h.slots_ne_zero), hlargest]
  rfl

/-- A shift that a word holds is refused if the array does not support it. -/
theorem ofGemm_of_shift (h : gemm.Screened geometry) (hfits : gemm.exactShift < Word32.size)
    (hmax : geometry.maxShift < gemm.exactShift) : ofGemm geometry gemm = .error (gemm.shiftTooLarge geometry) := by
  have hlargest : largestShift gemm = .ok gemm.exactShift := Word32.add_eq_ok_iff.mpr ⟨hfits, rfl⟩
  unfold ofGemm
  rw [bind_of_ok h.array, bind_of_ok h.shapes, bind_of_ok (demandCapability_of h.slots_ne_zero),
    lift_bind_of_ok hlargest, demandCapability, if_neg (Nat.not_le.mpr hmax)]
  rfl

/-- A product whose shift is past the 32-bit words fails a demand that is made before, or comes as far as its shift. -/
theorem ofGemm_fails_of_overshift (hover : Word32.size ≤ gemm.exactShift) :
    Fails (fun failure => failure.Demanded ∨ failure = .fault .overflow ∧ gemm.Screened geometry)
      (ofGemm geometry gemm) := by
  have hlargest : largestShift gemm = .error .overflow := if_neg (Nat.not_lt.mpr hover)
  unfold ofGemm
  refine .bind (fun cause h => .inl (geometry.check_fails cause h)) fun _ harray => ?_
  refine .bind (fun cause h => .inl (gemm.check_fails (Geometry.checked harray) cause h)) fun _ hshapes => ?_
  refine .bind (.demandCapability (.inl trivial)) fun _ hslots => ?_
  obtain ⟨hlhs, hrhs⟩ := demandCapability_eq_ok_iff.mp hslots
  -- nothing after the shift is ever asked
  rw [hlargest]
  rintro _ ⟨⟩
  refine .inr ⟨rfl, harray, hshapes, ?_⟩
  rintro (_ | _)
  · exact Nat.pos_of_ne_zero hlhs
  · exact Nat.pos_of_ne_zero hrhs

/-- A plan fails for one of the conditions that it demands, or for a shift past the 32-bit words. -/
theorem ofGemm_fails_or (hsize : ∀ operand, (gemm.operand operand).exactBytes < Word64.size) :
    Fails (fun failure => failure.Demanded ∨
      failure = .fault .overflow ∧ gemm.Screened geometry ∧ Word32.size ≤ gemm.exactShift) (ofGemm geometry gemm) := by
  intro failure h
  rcases Nat.lt_or_ge gemm.exactShift Word32.size with hfits | hover
  · exact .inl (ofGemm_demands hsize hfits failure h)
  · exact (ofGemm_fails_of_overshift hover failure h).imp_right fun ⟨hfault, hscreened⟩ => ⟨hfault, hscreened, hover⟩

end TilePlan

/-- A demand concerns the shapes or the array. -/
theorem Failure.Demanded.refused_eq {reason : Refusal} (h : (Failure.refused reason).Demanded) :
    (∃ defect, reason = .unsupportedShape defect) ∨ ∃ defect, reason = .capabilityMismatch defect := by
  cases reason with
  | unsupportedShape defect => exact .inl ⟨defect, rfl⟩
  | capabilityMismatch defect => exact .inr ⟨defect, rfl⟩
  | _ => exact h.elim

/-- Cutting a product whose operands can be counted in bytes comes through or is turned down for its shapes or for the
array, with one exception: a product that comes as far as its shift is a fault if its shift takes more than 32 bits. Any
smaller shift that the array does not support is named as the reason. -/
theorem plan_fault_iff {geometry : Geometry} {gemm : Gemm}
    (hsize : ∀ operand, (gemm.operand operand).exactBytes < Word64.size) :
    (∀ fault, TilePlan.ofGemm geometry gemm = .error (.fault fault) ↔
      fault = .overflow ∧ gemm.Screened geometry ∧ Word32.size ≤ gemm.exactShift) ∧
    (∀ reason, TilePlan.ofGemm geometry gemm = .error (.refused reason) →
      (∃ defect, reason = .unsupportedShape defect) ∨ ∃ defect, reason = .capabilityMismatch defect) ∧
    (gemm.Screened geometry → geometry.maxShift < gemm.exactShift →
      (TilePlan.ofGemm geometry gemm = .error (gemm.shiftTooLarge geometry) ↔ gemm.exactShift < Word32.size)) := by
  refine ⟨fun fault => ⟨fun h => ?_, ?_⟩, fun reason h => ?_, fun hscreened hmax => ⟨fun h => ?_, fun hfits => ?_⟩⟩
  · rcases TilePlan.ofGemm_fails_or hsize _ h with hdemanded | ⟨hfault, hscreened, hover⟩
    · exact hdemanded.elim
    · exact ⟨Failure.fault.inj hfault, hscreened, hover⟩
  · rintro ⟨rfl, hscreened, hover⟩
    exact TilePlan.ofGemm_of_overshift hscreened hover
  · rcases TilePlan.ofGemm_fails_or hsize _ h with hdemanded | ⟨hfault, -⟩
    · exact hdemanded.refused_eq
    · cases hfault
  · by_contra hover
    rw [TilePlan.ofGemm_of_overshift hscreened (Nat.le_of_not_lt hover)] at h
    cases h
  · exact TilePlan.ofGemm_of_shift hscreened hfits hmax

/-- A reference array of one row and one column. -/
def singleCell : Geometry := { Geometry.reference with commonDim := 64, lhsDim := 1, rhsDim := 1 }

/-- Two operands of one row of 64 columns, with the same number of planes. -/
def deepGemm (planes : Nat) : Gemm := ⟨⟨1, 1, 64, 64, planes, false⟩, ⟨1, 1, 64, 64, planes, false⟩⟩

/-- Operands of one row come as far as their shift, however many planes they have. -/
theorem deepGemm_screened {planes : Nat} (hplanes : 0 < planes) : (deepGemm planes).Screened singleCell := by
  have hcheck (operand : Operand) : OperandShape.check ⟨1, 1, 64, 64, planes, false⟩ operand singleCell = .ok () := by
    have hdim : singleCell.dim operand = 1 := by cases operand <;> rfl
    simp only [OperandShape.check, bind_eq_ok_iff, lift_eq_ok_iff, demandShape_eq_ok_iff, Word64.mod_eq_ok_iff, hdim]
    exact ⟨(), Nat.ne_of_gt hplanes, (), by decide, (), by decide, 0, by decide, (), rfl, 0, by decide, (), rfl,
      by decide⟩
  refine ⟨rfl, ?_, ?_⟩
  · exact (bind_of_ok (hcheck .lhs)).trans ((bind_of_ok (hcheck .rhs)).trans rfl)
  · rintro (_ | _)
    · decide
    · decide

theorem deepGemm_size {planes : Nat} (hplanes : planes ≤ Word32.size) (operand : Operand) :
    ((deepGemm planes).operand operand).exactBytes < Word64.size := by
  have hbytes : ((deepGemm planes).operand operand).exactBytes = planes * 8 := by
    cases operand <;> simp [OperandShape.exactBytes, OperandShape.rowWords, Gemm.operand, deepGemm, wordBits, wordBytes]
  rw [hbytes]
  unfold Word64.size
  unfold Word32.size at hplanes
  omega

/-- Operands of 2^31 planes are turned down for their shift, and those of one plane more are a fault. -/
theorem plan_fault_iff_deep :
    TilePlan.ofGemm singleCell (deepGemm 0x80000000) = .error ((deepGemm 0x80000000).shiftTooLarge singleCell) ∧
      TilePlan.ofGemm singleCell (deepGemm 0x80000001) = .error (.fault .overflow) := by
  obtain ⟨-, -, hshift⟩ := @plan_fault_iff singleCell _ (@deepGemm_size 0x80000000 (by decide))
  obtain ⟨hfault, -⟩ := @plan_fault_iff singleCell _ (@deepGemm_size 0x80000001 (by decide))
  refine ⟨(hshift (deepGemm_screened (by decide)) (by decide)).mpr (by decide), ?_⟩
  exact (hfault .overflow).mpr ⟨rfl, deepGemm_screened (by decide), by decide⟩

/-- The array supports no shift of 2^32, but a product that needs one is a fault instead of being turned down. -/
theorem deep_product_faults :
    (∀ operand, ((deepGemm 0x80000001).operand operand).exactBytes < Word64.size) ∧
      (deepGemm 0x80000001).Screened singleCell ∧ singleCell.maxShift < (deepGemm 0x80000001).exactShift ∧
        TilePlan.ofGemm singleCell (deepGemm 0x80000001) = .error (.fault .overflow) :=
  have hscreened := deepGemm_screened (by decide)
  ⟨deepGemm_size (by decide), hscreened, by decide, TilePlan.ofGemm_of_overshift hscreened (by decide)⟩

end BitSerial
