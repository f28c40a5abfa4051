import Mathlib.Order.Bounds.Basic
import BitSerial.Proofs.Cutting

/-! # Padded shapes

Padding rounds the rows of an operand up to the array dimension, and the common dimension up to a unit that makes whole
array words and whole aligned addresses at once. That unit is a least common multiple: what it divides is just what both
divide, so rounding up to it pads no more than needed. A shape that was padded passes the check of the array that it was
padded for, and its rows begin at aligned addresses.
-/

namespace BitSerial

section Rounding

variable {value unit bound quotient : Nat}

/-- Euclid's algorithm finds the greatest common divisor. -/
theorem commonDivisor_eq (first second : Nat) : commonDivisor first second = Nat.gcd first second := by
  fun_induction commonDivisor first second with
  | case1 first => exact (Nat.gcd_zero_right first).symm
  | case2 first second _ ih => rw [ih, Nat.gcd_comm first second, Nat.gcd_rec second first, Nat.gcd_comm]

/-- The least common multiple is found if a word holds it. -/
theorem commonMultiple_eq {first : Nat} (hfirst : 0 < first) (second : Nat) :
    commonMultiple first second = Word64.fit (Nat.lcm first second) := by
  have hdivisor : Nat.gcd first second ≠ 0 := Nat.ne_of_gt (Nat.gcd_pos_of_pos_left second hfirst)
  rw [commonMultiple, commonDivisor_eq, bind_of_ok (Word64.div_eq_ok_iff.mpr ⟨hdivisor, rfl⟩), Word64.mul,
    Nat.div_mul_right_comm (Nat.gcd_dvd_left first second), Nat.lcm_eq_mul_div]

/-- A quotient rounded up is the least number of units that a value needs. -/
theorem quotientUp_le_iff (hunit : 0 < unit) : (value + unit - 1) / unit ≤ quotient ↔ value ≤ quotient * unit := by
  rw [Nat.div_le_iff_le_mul_add_pred hunit, Nat.mul_comm unit quotient]
  omega

/-- That many units are the least multiple of a unit that is at least a value. -/
theorem quotientUp_isLeast (hunit : 0 < unit) :
    IsLeast {size | value ≤ size ∧ unit ∣ size} ((value + unit - 1) / unit * unit) := by
  refine ⟨⟨(quotientUp_le_iff hunit).mp (Nat.le_refl _), Nat.dvd_mul_left _ _⟩, ?_⟩
  rintro size ⟨hsize, quotient, rfl⟩
  rw [Nat.mul_comm unit quotient] at hsize ⊢
  exact Nat.mul_le_mul_right unit ((quotientUp_le_iff hunit).mpr hsize)

/-- Rounding up finds the least multiple of a unit that is at least a value, if a word holds any. -/
theorem roundUp_isLeast (hunit : 0 < unit) (hvalue : value ≤ bound) (hdvd : unit ∣ bound)
    (hbound : bound < Word64.size) :
    ∃ size, roundUp value unit = .ok size ∧ IsLeast {size | value ≤ size ∧ unit ∣ size} size := by
  refine ⟨_, ?_, quotientUp_isLeast hunit⟩
  rw [roundUp, if_neg (Nat.ne_of_gt hunit)]
  exact Word64.mul_eq_ok_iff.mpr
    ⟨Nat.lt_of_le_of_lt ((quotientUp_isLeast hunit).2 ⟨hvalue, hdvd⟩) hbound, rfl⟩

end Rounding

namespace Gemm.Request

variable (request : Request)

/-- The rows that a problem has of an operand. -/
def rows : Operand → Nat
  | .lhs => request.lhsRows
  | .rhs => request.rhsRows

/-- The bit planes that a problem has of an operand. -/
def bits : Operand → Nat
  | .lhs => request.lhsBits
  | .rhs => request.rhsBits

/-- Whether the highest plane of an operand counts negatively. -/
def signed : Operand → Bool
  | .lhs => request.lhsSigned
  | .rhs => request.rhsSigned

/-- A problem with something to multiply. -/
structure Proper : Prop where
  rows : ∀ operand, 1 ≤ request.rows operand
  depth : 1 ≤ request.depth
  bits : ∀ operand, 1 ≤ request.bits operand

variable (geometry : Geometry)

/-- What the rows of an operand may be padded to: they fill the array some number of times. -/
def rowPaddings (operand : Operand) : Set Nat :=
  {size | request.rows operand ≤ size ∧ geometry.dim operand ∣ size}

/-- What the common dimension may be padded to: bits that are whole array words and whole aligned addresses. -/
def depthPaddings : Set Nat :=
  {size | request.depth ≤ size ∧ geometry.commonDim ∣ size ∧ addressAlign * 8 ∣ size}

/-- Every dimension has a padding that a word holds. -/
structure Fits : Prop where
  rows : ∀ operand, ∃ size ∈ request.rowPaddings geometry operand, size < Word64.size
  depth : ∃ size ∈ request.depthPaddings geometry, size < Word64.size

end Gemm.Request

/-- The shape of an operand of a problem, padded no more than needed. -/
structure OperandShape.Pads (shape : OperandShape) (geometry : Geometry) (request : Gemm.Request) (operand : Operand) :
    Prop where
  rows : shape.rows = request.rows operand
  cols : shape.cols = request.depth
  bits : shape.bits = request.bits operand
  signed : shape.signed = request.signed operand
  paddedRows : IsLeast (request.rowPaddings geometry operand) shape.paddedRows
  paddedCols : IsLeast (request.depthPaddings geometry) shape.paddedCols

variable {geometry : Geometry} {request : Gemm.Request}

namespace OperandShape.Pads

variable {shape : OperandShape} {operand : Operand}

/-- Padding makes every check of a shape come out. -/
theorem check (h : shape.Pads geometry request operand) (harray : geometry.Checked) (hproper : request.Proper) :
    shape.check operand geometry = .ok () := by
  obtain ⟨hrows, hdim⟩ := h.paddedRows.1
  obtain ⟨hdepth, hcommon, haligned⟩ := h.paddedCols.1
  have hwords : wordBits ∣ shape.paddedCols := Nat.dvd_trans (by decide) haligned
  simp only [OperandShape.check, bind_eq_ok_iff, lift_eq_ok_iff, demandShape_eq_ok_iff, Word64.mod_eq_ok_iff]
  refine ⟨(), ?_, (), ⟨?_, ?_⟩, (), ⟨?_, ?_⟩, _, ⟨Nat.ne_of_gt (harray.dim_pos operand), rfl⟩, (),
    Nat.mod_eq_zero_of_dvd hdim, _, ⟨Nat.ne_of_gt harray.commonDim_pos, rfl⟩, (), Nat.mod_eq_zero_of_dvd hcommon,
    Nat.mod_eq_zero_of_dvd hwords⟩
  · exact h.bits ▸ Nat.ne_of_gt (hproper.bits operand)
  · exact h.rows ▸ Nat.ne_of_gt (hproper.rows operand)
  · exact h.cols ▸ Nat.ne_of_gt hproper.depth
  · exact h.rows ▸ hrows
  · exact h.cols ▸ hdepth

/-- Every row of a padded operand is a whole number of aligned addresses. -/
theorem rowBytes (h : shape.Pads geometry request operand) : addressAlign ∣ shape.rowBytes :=
  Nat.dvd_div_of_mul_dvd (Nat.mul_comm addressAlign 8 ▸ h.paddedCols.1.2.2)

end OperandShape.Pads

/-- The two shapes of a padded problem go together. -/
theorem Gemm.check_of_pads {gemm : Gemm} (h : ∀ operand, (gemm.operand operand).Pads geometry request operand)
    (harray : geometry.Checked) (hproper : request.Proper) : gemm.check geometry = .ok () := by
  have hlhs : gemm.lhs.Pads geometry request .lhs := h .lhs
  have hrhs : gemm.rhs.Pads geometry request .rhs := h .rhs
  simp only [Gemm.check, bind_eq_ok_iff, demandShape_eq_ok_iff]
  exact ⟨(), hlhs.check harray hproper, (), hrhs.check harray hproper, hlhs.paddedCols.unique hrhs.paddedCols,
    hlhs.cols.trans hrhs.cols.symm⟩

/-- Padding comes through if the padded dimensions fit their words. -/
theorem Gemm.forGeometry_total (harray : geometry.Checked) (hproper : request.Proper) (hfits : request.Fits geometry) :
    ∃ gemm, Gemm.forGeometry geometry request = .ok gemm ∧
      ∀ operand, (gemm.operand operand).Pads geometry request operand := by
  obtain ⟨bound, ⟨hdepth, hcommon, haligned⟩, hbound⟩ := hfits.depth
  have hdvd : Nat.lcm geometry.commonDim (addressAlign * 8) ∣ bound := Nat.lcm_dvd hcommon haligned
  have hunit : commonMultiple (max geometry.commonDim 1) (addressAlign * 8) =
      .ok (Nat.lcm geometry.commonDim (addressAlign * 8)) := by
    rw [Nat.max_eq_left harray.commonDim_pos, commonMultiple_eq harray.commonDim_pos]
    exact Word64.fit_eq_ok (Nat.lt_of_le_of_lt (Nat.le_of_dvd (Nat.le_trans hproper.depth hdepth) hdvd) hbound)
  obtain ⟨paddedCols, hcols, hleastCols⟩ :=
    roundUp_isLeast (Nat.lcm_pos harray.commonDim_pos (by decide)) hdepth hdvd hbound
  simp only [Nat.lcm_dvd_iff] at hleastCols
  have hshape (operand : Operand) : ∃ shape : OperandShape, OperandShape.padded (request.rows operand) request.depth
      (request.bits operand) (request.signed operand) (max (geometry.dim operand) 1)
        (Nat.lcm geometry.commonDim (addressAlign * 8)) = .ok shape ∧ shape.Pads geometry request operand := by
    obtain ⟨size, ⟨hrows, hdim⟩, hsize⟩ := hfits.rows operand
    obtain ⟨paddedRows, hpaddedRows, hleastRows⟩ := roundUp_isLeast (harray.dim_pos operand) hrows hdim hsize
    rw [Nat.max_eq_left (harray.dim_pos operand)]
    exact ⟨_, bind_eq_ok_iff.mpr ⟨paddedRows, hpaddedRows, bind_eq_ok_iff.mpr ⟨paddedCols, hcols, rfl⟩⟩,
      rfl, rfl, rfl, rfl, hleastRows, hleastCols⟩
  obtain ⟨lhs, hlhs, hlhsPads⟩ := hshape .lhs
  obtain ⟨rhs, hrhs, hrhsPads⟩ := hshape .rhs
  refine ⟨⟨lhs, rhs⟩, ?_, ?_⟩
  · unfold forGeometry
    rw [bind_of_ok hunit]
    exact bind_eq_ok_iff.mpr ⟨lhs, hlhs, bind_eq_ok_iff.mpr ⟨rhs, hrhs, rfl⟩⟩
  · rintro (_ | _)
    · exact hlhsPads
    · exact hrhsPads

end BitSerial
