import Mathlib.Algebra.BigOperators.Intervals
import Mathlib.Algebra.BigOperators.Ring.Finset
import Mathlib.Tactic.Ring
import BitSerial.Proofs.Placement

/-! # The product that a schedule computes

An element of a packed operand is a weighted sum of its bits, so an element of the product is a weighted sum of the
positions that two rows of bits have in common. The steps of an output tile are the terms of that sum: each of them
accumulates the positions of one pair of planes and one tile of the common dimension, with the weights of the planes.
-/

namespace BitSerial

open Finset

theorem sum_range_mul (f : Nat → Int) (highs lows : Nat) :
    ∑ number ∈ range (highs * lows), f number = ∑ high ∈ range highs, ∑ low ∈ range lows, f (high * lows + low) := by
  induction highs with
  | zero => rw [Nat.zero_mul, sum_range_zero, sum_range_zero]
  | succ highs ih => rw [Nat.succ_mul, sum_range_add, ih, sum_range_succ]

namespace OperandShape

variable (shape : OperandShape)

/-- The bit of a plane at a row and a column, given the bits of the packed operand from its first one on. -/
def bit (bits : Nat → Bool) (plane row col : Nat) : Bool :=
  bits ((plane * shape.paddedRows + row) * shape.paddedCols + col)

/-- What a bit of a plane counts. The highest plane of a signed operand counts negatively. -/
def weight (plane : Nat) : Int :=
  if shape.signed = true ∧ plane + 1 = shape.bits then -2 ^ plane else 2 ^ plane

/-- What a plane counts at a row and a column. -/
def planeValue (bits : Nat → Bool) (plane row col : Nat) : Int :=
  shape.weight plane * (shape.bit bits plane row col).toInt

/-- The number that the planes hold at a row and a column. -/
def value (bits : Nat → Bool) (row col : Nat) : Int :=
  ∑ plane ∈ range shape.bits, shape.planeValue bits plane row col

end OperandShape

/-- The dot product of a row of each operand. -/
def Gemm.product (gemm : Gemm) (bits : Operand → Nat → Bool) (lhsRow rhsRow : Nat) : Int :=
  ∑ col ∈ range gemm.lhs.paddedCols,
    gemm.lhs.value (bits .lhs) lhsRow col * gemm.rhs.value (bits .rhs) rhsRow col

/-- What an execute command makes of an accumulator, given how many positions two rows have in common. -/
def ExecuteCommand.accumulate (command : ExecuteCommand) (common : Nat) (held : Int) : Int :=
  let start := if command.clear then 0 else held
  let shifted : Int := 2 ^ command.shift * common
  if command.negate then start - shifted else start + shifted

def Schedule.tileProgram (schedule : Schedule) (output : Nat) : List (Instruction ExecuteCommand) :=
  (schedule.execute.drop (output * schedule.nest.stepCount)).take schedule.nest.stepCount

namespace Layout

section Evaluation

variable (layout : Layout) (bits : Operand → Nat → Bool)

/-- A row of the tile that a step needs, read from where the tile is in the buffer. -/
def rowBits (operand : Operand) (output step row : Nat) : Except Fault (List Bool) := do
  let address ← layout.neededAddress operand output step
  let segment ← (layout.plan.operand operand).segmentBytes
  let offset := address - layout.addresses.operand operand + row * (layout.gemm.operand operand).rowBytes
  return (List.range (8 * segment)).map fun position => bits operand (8 * offset + position)

/-- How many positions two rows of the tiles of a step have in common. -/
def commonPositions (output step lhsRow rhsRow : Nat) : Except Fault Nat := do
  let lhs ← layout.rowBits bits .lhs output step lhsRow
  let rhs ← layout.rowBits bits .rhs output step rhsRow
  return (List.zipWith (· && ·) lhs rhs).count true

/-- What the instructions of an output tile hand over for two of its rows, from a step on, given what the result slots
hold. -/
def handedOver (output lhsRow rhsRow : Nat) :
    (program : List (Instruction ExecuteCommand)) → (step : Nat) → (held : Nat → Int) → Except Fault (List Int)
  | [], _, _ => .ok []
  | instruction :: rest, step, held => do
    let command := instruction.command
    let common ← layout.commonPositions bits output step lhsRow rhsRow
    let value := command.accumulate common (held command.resultSlot)
    let later ← handedOver output lhsRow rhsRow rest (step + 1) (Function.update held command.resultSlot value)
    return if command.commit then value :: later else later

/-- How the execute instructions of an output tile compute. -/
structure Multiplies (schedule : Schedule) (output : Nat) : Prop where
  length : (schedule.tileProgram output).length = layout.nest.stepCount
  clear : ∀ step instruction, (schedule.tileProgram output)[step]? = some instruction →
    (instruction.command.clear = true ↔ step = 0)
  commit : ∀ step instruction, (schedule.tileProgram output)[step]? = some instruction →
    (instruction.command.commit = true ↔ step + 1 = layout.nest.stepCount)
  shift : ∀ instruction ∈ schedule.tileProgram output, instruction.command.shift ≤ layout.geometry.maxShift
  /-- Whatever was accumulated before, one number is handed over, and it is the element of the product. -/
  product : ∀ lhsRow < layout.plan.lhs.tileRows, ∀ rhsRow < layout.plan.rhs.tileRows, ∀ held,
    layout.handedOver bits output lhsRow rhsRow (schedule.tileProgram output) 0 held =
      .ok [layout.gemm.product bits (layout.nest.lhsTile output * layout.plan.lhs.tileRows + lhsRow)
        (layout.nest.rhsTile output * layout.plan.rhs.tileRows + rhsRow)]

end Evaluation

section Terms

variable {layout : Layout} {bits : Operand → Nat → Bool}

/-- The positions that two rows have in common in a tile of the common dimension, weighted. -/
def term (layout : Layout) (bits : Operand → Nat → Bool) (lhsRow rhsRow : Nat) (index : StepIndex) : Int :=
  layout.gemm.lhs.weight index.lhsPlane * layout.gemm.rhs.weight index.rhsPlane *
    ∑ position ∈ range (8 * layout.plan.lhs.segment),
      (layout.gemm.lhs.bit (bits .lhs) index.lhsPlane lhsRow
          (index.common * (8 * layout.plan.lhs.segment) + position)).toInt *
        (layout.gemm.rhs.bit (bits .rhs) index.rhsPlane rhsRow
          (index.common * (8 * layout.plan.lhs.segment) + position)).toInt

theorem commonTiles_mul_bits (hcuts : layout.plan.Cuts layout.geometry layout.gemm) :
    layout.nest.commonTiles * (8 * layout.plan.lhs.segment) = layout.gemm.lhs.paddedCols := by
  have hrow : layout.nest.commonTiles * layout.plan.lhs.segment = layout.gemm.lhs.rowBytes :=
    hcuts.commonTiles_mul_segment .lhs
  have hbits : 8 * layout.gemm.lhs.rowBytes = layout.gemm.lhs.paddedCols := (hcuts.shape .lhs).eight_mul_rowBytes
  rw [Nat.mul_left_comm, hrow, hbits]

theorem sum_steps (nest : LoopNest) (f : StepIndex → Int) :
    ∑ step ∈ range nest.stepCount, f (nest.stepIndex step) =
      ∑ lhsPlane ∈ range nest.lhsPlanes, ∑ rhsPlane ∈ range nest.rhsPlanes, ∑ common ∈ range nest.commonTiles,
        f ⟨lhsPlane, rhsPlane, common⟩ := by
  unfold LoopNest.stepCount
  rw [sum_range_mul, sum_range_mul]
  apply sum_congr rfl
  intro lhsPlane _
  apply sum_congr rfl
  intro rhsPlane hrhsPlane
  apply sum_congr rfl
  intro common hcommon
  rw [LoopNest.stepIndex_eq (mem_range.mp hrhsPlane) (mem_range.mp hcommon)]

/-- The terms of two planes are what the planes count in all columns. -/
theorem sum_common (hcuts : layout.plan.Cuts layout.geometry layout.gemm) (lhsRow rhsRow lhsPlane rhsPlane : Nat) :
    ∑ common ∈ range layout.nest.commonTiles, layout.term bits lhsRow rhsRow ⟨lhsPlane, rhsPlane, common⟩ =
      ∑ col ∈ range layout.gemm.lhs.paddedCols,
        layout.gemm.lhs.planeValue (bits .lhs) lhsPlane lhsRow col *
          layout.gemm.rhs.planeValue (bits .rhs) rhsPlane rhsRow col := by
  rw [← commonTiles_mul_bits hcuts, sum_range_mul]
  apply sum_congr rfl
  intro common _
  unfold term
  rw [mul_sum]
  apply sum_congr rfl
  intro position _
  unfold OperandShape.planeValue
  ring

/-- The terms add up to the element of the product. -/
theorem sum_term (hcuts : layout.plan.Cuts layout.geometry layout.gemm) (lhsRow rhsRow : Nat) :
    ∑ step ∈ range layout.nest.stepCount, layout.term bits lhsRow rhsRow (layout.nest.stepIndex step) =
      layout.gemm.product bits lhsRow rhsRow := by
  let lhs := fun plane col => layout.gemm.lhs.planeValue (bits .lhs) plane lhsRow col
  let rhs := fun plane col => layout.gemm.rhs.planeValue (bits .rhs) plane rhsRow col
  -- the steps go plane by plane, the product column by column
  calc ∑ step ∈ range layout.nest.stepCount, layout.term bits lhsRow rhsRow (layout.nest.stepIndex step)
      = ∑ lhsPlane ∈ range layout.gemm.lhs.bits, ∑ rhsPlane ∈ range layout.gemm.rhs.bits,
          ∑ col ∈ range layout.gemm.lhs.paddedCols, lhs lhsPlane col * rhs rhsPlane col := by
        rw [sum_steps]
        simp only [sum_common hcuts]
        rfl
    _ = ∑ lhsPlane ∈ range layout.gemm.lhs.bits, ∑ col ∈ range layout.gemm.lhs.paddedCols,
          ∑ rhsPlane ∈ range layout.gemm.rhs.bits, lhs lhsPlane col * rhs rhsPlane col :=
        sum_congr rfl fun _ _ => sum_comm
    _ = ∑ col ∈ range layout.gemm.lhs.paddedCols, ∑ lhsPlane ∈ range layout.gemm.lhs.bits,
          ∑ rhsPlane ∈ range layout.gemm.rhs.bits, lhs lhsPlane col * rhs rhsPlane col := sum_comm
    _ = layout.gemm.product bits lhsRow rhsRow := by
        apply sum_congr rfl
        intro col _
        exact (sum_mul_sum _ _ _ _).symm

end Terms

/-- What the first steps of an output tile accumulate for two of its rows. -/
def accumulated (layout : Layout) (bits : Operand → Nat → Bool) (output lhsRow rhsRow steps : Nat) : Int :=
  ∑ step ∈ range steps, layout.term bits (layout.nest.lhsTile output * layout.plan.lhs.tileRows + lhsRow)
    (layout.nest.rhsTile output * layout.plan.rhs.tileRows + rhsRow) (layout.nest.stepIndex step)

section Steps

variable {layout : Layout} {bits : Operand → Nat → Bool} {operand : Operand} {output step lhsRow rhsRow : Nat}

/-- The tile at the address that a step needs has the bits of its plane, its row tile and its columns. -/
theorem rowBits_eq (bits : Operand → Nat → Bool) (hcuts : layout.plan.Cuts layout.geometry layout.gemm)
    {address : Nat} (haddress : layout.neededAddress operand output step = .ok address) (row : Nat) :
    layout.rowBits bits operand output step row =
      .ok ((List.range (8 * (layout.plan.operand operand).segment)).map fun position =>
        (layout.gemm.operand operand).bit (bits operand) ((layout.nest.stepIndex step).plane operand)
          (layout.nest.rowTile operand output * (layout.plan.operand operand).tileRows + row)
          ((layout.nest.stepIndex step).common * (8 * (layout.plan.operand operand).segment) + position)) := by
  have hoffset : address - layout.addresses.operand operand + row * (layout.gemm.operand operand).rowBytes =
      layout.rowOffset operand ⟨layout.neededTile operand output step, row⟩ := by
    rw [neededAddress_eq hcuts haddress, Nat.add_sub_cancel_left, rowOffset_eq]
  have hcols := (hcuts.shape operand).eight_mul_rowBytes
  unfold rowBits
  rw [haddress, hcuts.segmentBytes_eq operand]
  simp only [bind, Except.bind, pure, Except.pure, hoffset, rowOffset, packedRow, neededTile, OperandShape.bit]
  congr
  funext position
  congr 1
  -- in bits, a row of bytes is as long as the columns are wide
  rw [← hcols]
  ring

theorem count_common (lhs rhs : Nat → Bool) (positions : Nat) :
    ((List.zipWith (· && ·) ((List.range positions).map lhs) ((List.range positions).map rhs)).count true : Int) =
      ∑ position ∈ range positions, (lhs position).toInt * (rhs position).toInt := by
  rw [List.zipWith_map, List.zipWith_self]
  induction positions with
  | zero => rfl
  | succ positions ih =>
    rw [List.range_succ, List.map_append, List.count_append, Nat.cast_add, ih, sum_range_succ]
    congr 1
    cases hlhs : lhs positions
    · simp [hlhs]
    · cases hrhs : rhs positions
      · simp [hlhs, hrhs]
      · simp [hlhs, hrhs]

/-- The weights of two planes are those of a shift, negative if partial products are subtracted. -/
theorem weight_mul (lhsPlane rhsPlane : Nat) :
    layout.gemm.lhs.weight lhsPlane * layout.gemm.rhs.weight rhsPlane =
      if layout.negates lhsPlane rhsPlane then -2 ^ (lhsPlane + rhsPlane) else 2 ^ (lhsPlane + rhsPlane) := by
  have hsign (shape : OperandShape) (plane : Nat) : (shape.signed && plane + 1 == shape.bits) =
      decide (shape.signed = true ∧ plane + 1 = shape.bits) := by
    rw [Bool.decide_and, Bool.decide_eq_true, beq_eq_decide]
  unfold OperandShape.weight negates
  rw [hsign, hsign, pow_add]
  by_cases hlhs : layout.gemm.lhs.signed = true ∧ lhsPlane + 1 = layout.gemm.lhs.bits
  · by_cases hrhs : layout.gemm.rhs.signed = true ∧ rhsPlane + 1 = layout.gemm.rhs.bits
    · simp [hlhs, hrhs]
    · simp [hlhs, hrhs]
  · by_cases hrhs : layout.gemm.rhs.signed = true ∧ rhsPlane + 1 = layout.gemm.rhs.bits
    · simp [hlhs, hrhs]
    · simp [hlhs, hrhs]

theorem executeCommand_shift (hfits : layout.gemm.lhs.bits - 1 + (layout.gemm.rhs.bits - 1) < Word32.size)
    (hstep : step < layout.nest.stepCount) (output slot : Nat) :
    (layout.executeCommand output step slot).shift =
        (layout.nest.stepIndex step).lhsPlane + (layout.nest.stepIndex step).rhsPlane ∧
      (layout.executeCommand output step slot).shift ≤
        layout.gemm.lhs.bits - 1 + (layout.gemm.rhs.bits - 1) := by
  obtain ⟨hlhsPlane, hrhsPlane, _⟩ := LoopNest.stepIndex_lt hstep
  change (layout.nest.stepIndex step).lhsPlane < layout.gemm.lhs.bits at hlhsPlane
  change (layout.nest.stepIndex step).rhsPlane < layout.gemm.rhs.bits at hrhsPlane
  have hshift : (layout.executeCommand output step slot).shift =
      (layout.nest.stepIndex step).lhsPlane + (layout.nest.stepIndex step).rhsPlane :=
    Word32.low_eq_self (by omega)
  exact ⟨hshift, by omega⟩

/-- A step takes what the steps before it accumulated to what they and it accumulate. The first one takes anything. -/
theorem accumulate_eq (hcuts : layout.plan.Cuts layout.geometry layout.gemm)
    (hfits : layout.gemm.lhs.bits - 1 + (layout.gemm.rhs.bits - 1) < Word32.size)
    (hstep : step < layout.nest.stepCount)
    (hneeded : ∀ operand, ∃ address, layout.neededAddress operand output step = .ok address)
    (bits : Operand → Nat → Bool) (lhsRow rhsRow : Nat) :
    ∃ common, layout.commonPositions bits output step lhsRow rhsRow = .ok common ∧ ∀ slot held,
      (step ≠ 0 → held = layout.accumulated bits output lhsRow rhsRow step) →
      (layout.executeCommand output step slot).accumulate common held =
        layout.accumulated bits output lhsRow rhsRow (step + 1) := by
  obtain ⟨lhsAddress, hlhsAddress⟩ := hneeded .lhs
  obtain ⟨rhsAddress, hrhsAddress⟩ := hneeded .rhs
  have hlhs := rowBits_eq bits hcuts hlhsAddress lhsRow
  have hrhs := rowBits_eq bits hcuts hrhsAddress rhsRow
  have hsegment : (layout.plan.operand .rhs).segment = (layout.plan.operand .lhs).segment := hcuts.segment_eq .rhs
  rw [hsegment] at hrhs
  unfold commonPositions
  rw [hlhs, hrhs]
  refine ⟨_, rfl, ?_⟩
  intro slot held hheld
  have hstart : (if (layout.executeCommand output step slot).clear = true then 0 else held) =
      layout.accumulated bits output lhsRow rhsRow step := by
    cases step with
    | zero => rfl
    | succ step => exact hheld (Nat.succ_ne_zero step)
  have hnegate : (layout.executeCommand output step slot).negate =
    layout.negates (layout.nest.stepIndex step).lhsPlane (layout.nest.stepIndex step).rhsPlane := rfl
  unfold ExecuteCommand.accumulate
  rw [hstart, hnegate, (executeCommand_shift hfits hstep output slot).1, count_common]
  unfold accumulated term
  rw [sum_range_succ, weight_mul]
  split
  · rw [neg_mul, ← sub_eq_add_neg]
    rfl
  · rfl

/-- The steps from one on hand over one number in the end. -/
theorem handedOver_eq (hcuts : layout.plan.Cuts layout.geometry layout.gemm)
    (hfits : layout.gemm.lhs.bits - 1 + (layout.gemm.rhs.bits - 1) < Word32.size)
    (hneeded : ∀ step < layout.nest.stepCount, ∀ operand, ∃ address,
      layout.neededAddress operand output step = .ok address)
    {program : List (Instruction ExecuteCommand)} (hrest : program ≠ [])
    (hend : step + program.length = layout.nest.stepCount)
    (hwritten : ∀ index instruction, program[index]? = some instruction → ∃ slot,
      instruction.command = layout.executeCommand output (step + index) slot)
    {held : Nat → Int}
    (hheld : step ≠ 0 → held (output % resultSlots) = layout.accumulated bits output lhsRow rhsRow step) :
    layout.handedOver bits output lhsRow rhsRow program step held =
      .ok [layout.accumulated bits output lhsRow rhsRow layout.nest.stepCount] := by
  induction program generalizing step held with
  | nil => exact absurd rfl hrest
  | cons first rest ih =>
    rw [List.length_cons] at hend
    have hstep : step < layout.nest.stepCount := by omega
    obtain ⟨slot, hfirst⟩ := hwritten 0 first rfl
    obtain ⟨common, hcommon, haccumulate⟩ := accumulate_eq hcuts hfits hstep (hneeded step hstep) bits lhsRow rhsRow
    have hvalue := haccumulate slot _ hheld
    have hresult : (layout.executeCommand output step slot).resultSlot = output % resultSlots := rfl
    have hcommit : (layout.executeCommand output step slot).commit = decide (step + 1 = layout.nest.stepCount) := rfl
    rw [Nat.add_zero] at hfirst
    unfold handedOver
    rw [hcommon, hfirst]
    simp only [bind, Except.bind, pure, Except.pure, hresult, hvalue, hcommit]
    cases rest with
    | nil =>
      -- the last step hands over
      have hlast : step + 1 = layout.nest.stepCount := hend
      rw [hlast]
      simp [handedOver]
    | cons second rest =>
      -- every other step leaves its slot to the next one
      have hmore : step + 1 ≠ layout.nest.stepCount := by
        rw [List.length_cons] at hend
        omega
      have hlater : layout.handedOver bits output lhsRow rhsRow (second :: rest) (step + 1)
          (Function.update held (output % resultSlots) (layout.accumulated bits output lhsRow rhsRow (step + 1))) =
          .ok [layout.accumulated bits output lhsRow rhsRow layout.nest.stepCount] := by
        apply ih (List.cons_ne_nil _ _)
        · omega
        · intro index instruction hat
          obtain ⟨later, hlater⟩ := hwritten (index + 1) instruction hat
          exact ⟨later, by rw [hlater, Nat.add_assoc, Nat.add_comm 1]⟩
        · intro _
          exact Function.update_self ..
      rw [hlater]
      simp [hmore]

end Steps

namespace ScheduleWritten

variable {layout : Layout} {schedule : Schedule} {start last : Residency} {bandPairs output step : Nat}
  {steps : List Step} {results : List (Instruction ResultCommand)}

theorem length_tileProgram (h : layout.ScheduleWritten schedule start last bandPairs steps results)
    (houtput : output < layout.nest.outputCount) : (schedule.tileProgram output).length = layout.nest.stepCount := by
  have hend := Nat.mul_le_mul_right layout.nest.stepCount houtput
  rw [Nat.succ_mul] at hend
  unfold Schedule.tileProgram
  rw [List.length_take, List.length_drop, h.execute, List.length_map, h.steps_length, h.nest]
  omega

theorem tileProgram_getElem? (h : layout.ScheduleWritten schedule start last bandPairs steps results)
    {instruction : Instruction ExecuteCommand} (hat : (schedule.tileProgram output)[step]? = some instruction) :
    instruction.command = layout.executeCommand output step (layout.stepSlot output step) ∧
      ∀ operand, ∃ address, layout.neededAddress operand output step = .ok address := by
  unfold Schedule.tileProgram at hat
  rw [List.getElem?_take, List.getElem?_drop, h.nest] at hat
  split at hat
  next hstep =>
    rw [h.execute, List.getElem?_map, Option.map_eq_some_iff] at hat
    obtain ⟨written, hwritten, rfl⟩ := hat
    obtain ⟨addresses, blocks, _, _, _, _, hstepWritten, rfl⟩ := h.stepWritten_getElem? hwritten
    obtain ⟨hdiv, hmod⟩ := div_mod_of_lt output hstep
    rw [hdiv, hmod] at hstepWritten ⊢
    exact ⟨rfl, fun operand => ⟨_, hstepWritten.address operand⟩⟩
  next => cases hat

end ScheduleWritten

end Layout

theorem TilePlan.ofGemm_shift {geometry : Geometry} {gemm : Gemm} {plan : TilePlan}
    (h : TilePlan.ofGemm geometry gemm = .ok plan) :
    gemm.lhs.bits - 1 + (gemm.rhs.bits - 1) < Word32.size ∧
      gemm.lhs.bits - 1 + (gemm.rhs.bits - 1) ≤ geometry.maxShift := by
  simp only [TilePlan.ofGemm, bind_eq_ok_iff, lift_eq_ok_iff, demandCapability_eq_ok_iff, largestShift,
    Word32.add_eq_ok_iff] at h
  obtain ⟨_, _, _, _, _, _, _, ⟨hfits, rfl⟩, _, hmost, _⟩ := h
  exact ⟨hfits, hmost⟩

/-- Whatever the operands hold, the execute instructions of every output tile compute its part of the product. -/
theorem execute_multiplies {layout : Layout} (hplan : TilePlan.ofGemm layout.geometry layout.gemm = .ok layout.plan)
    {start last : Residency} {schedule : Schedule} (hschedule : layout.schedule start = .ok (schedule, last))
    (bits : Operand → Nat → Bool) {output : Nat} (houtput : output < layout.nest.outputCount) :
    layout.Multiplies bits schedule output := by
  have hcuts := TilePlan.ofGemm_cuts hplan
  obtain ⟨hfits, hmost⟩ := TilePlan.ofGemm_shift hplan
  obtain ⟨bandPairs, steps, results, hwritten⟩ := Layout.schedule_written hschedule
  have hlength := hwritten.length_tileProgram houtput
  have hbelow {step : Nat} {instruction : Instruction ExecuteCommand}
      (hat : (schedule.tileProgram output)[step]? = some instruction) : step < layout.nest.stepCount := by
    rw [← hlength]
    exact (List.getElem?_eq_some_iff.mp hat).1
  constructor
  case length => exact hlength
  case clear =>
    intro step instruction hat
    rw [(hwritten.tileProgram_getElem? hat).1]
    exact beq_iff_eq
  case commit =>
    intro step instruction hat
    rw [(hwritten.tileProgram_getElem? hat).1]
    exact beq_iff_eq
  case shift =>
    intro instruction hinstruction
    obtain ⟨step, hat⟩ := List.getElem?_of_mem hinstruction
    rw [(hwritten.tileProgram_getElem? hat).1]
    exact Nat.le_trans (Layout.executeCommand_shift hfits (hbelow hat) _ _).2 hmost
  case product =>
    intro lhsRow hlhsRow rhsRow hrhsRow held
    have hsteps : 0 < layout.nest.stepCount := hcuts.stepCount_pos
    rw [← Layout.sum_term hcuts]
    apply Layout.handedOver_eq hcuts hfits
    · intro step hstep operand
      rw [← hlength] at hstep
      exact (hwritten.tileProgram_getElem? (List.getElem?_eq_getElem hstep)).2 operand
    · rw [← List.length_pos_iff_ne_nil, hlength]
      exact hsteps
    · rw [hlength, Nat.zero_add]
    · intro index instruction hat
      rw [Nat.zero_add]
      exact ⟨_, (hwritten.tileProgram_getElem? hat).1⟩
    · intro hzero
      exact absurd rfl hzero

/-- If all bits are set, the left operand is minus one everywhere and the right one is one, so an element of the product is
minus the number of columns. -/
theorem execute_multiplies_tiled :
    ∃ schedule last, tiledLayout.schedule .fresh = .ok (schedule, last) ∧ 5 < tiledLayout.nest.outputCount ∧
      tiledLayout.Multiplies (fun _ _ => true) schedule 5 ∧
      tiledLayout.handedOver (fun _ _ => true) 5 0 1 (schedule.tileProgram 5) 0 (fun _ => 7) = .ok [-1024] := by
  have hwrites : (tiledLayout.schedule .fresh).toOption.isSome := by decide +kernel
  obtain ⟨⟨schedule, last⟩, hschedule⟩ := Option.isSome_iff_exists.mp hwrites
  have hschedule := toOption_eq_some_iff.mp hschedule
  have hmultiplies : tiledLayout.Multiplies (fun _ _ => true) schedule 5 :=
    execute_multiplies tiledLayout_plan hschedule _ (by decide)
  have hproduct : tiledLayout.gemm.product (fun _ _ => true) 2 5 = -1024 := by decide +kernel
  refine ⟨schedule, last, hschedule, by decide, hmultiplies, ?_⟩
  rw [← hproduct]
  exact hmultiplies.product 0 (by decide) 1 (by decide) _

end BitSerial
