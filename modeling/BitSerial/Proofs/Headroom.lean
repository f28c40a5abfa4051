import BitSerial.Proofs.Acceptance
import BitSerial.Proofs.Alignment

/-! # Room for a schedule

Apart from what is turned down, the one thing that could stop a schedule is a number that does not fit its word. The
addresses of tiles and the origins of output tiles lie within the buffers, so they fit if the buffers do. What is
counted from step to step fits if it has room at the beginning for as much as all steps could add: two answers of the
tracker and a tile of each operand for a step, and a tile of the result for an output tile.
-/

namespace BitSerial

/-- A failure that is a refusal. -/
def Failure.IsRefusal (failure : Failure) : Prop := ∃ reason, failure = .refused reason

/-- What there is for each operand, there is for both at once. -/
theorem PerOperand.exists_get {α : Type} {holds : Operand → α → Prop} (h : ∀ operand, ∃ value, holds operand value) :
    ∃ family : PerOperand α, ∀ operand, holds operand (family.get operand) := by
  obtain ⟨lhs, hlhs⟩ := h .lhs
  obtain ⟨rhs, hrhs⟩ := h .rhs
  refine ⟨⟨lhs, rhs⟩, ?_⟩
  rintro (_ | _)
  · exact hlhs
  · exact hrhs

namespace Residency

/-- The tracker can count a number of answers more, whatever they are. -/
structure Room (residency : Residency) (answers : Nat) : Prop where
  hits : residency.hits + answers < Word64.size
  misses : residency.misses + answers < Word64.size

variable {residency after : Residency} {answers : Nat}

theorem Room.not_full (h : residency.Room (answers + 1)) : ¬ residency.Full := by
  have hhits := h.hits
  have hmisses := h.misses
  rintro (hfull | hfull)
  · omega
  · omega

theorem Asked.room {operand : Operand} {slot : Nat} {tile : TileIdentity} {hit : Bool}
    (hasked : residency.Asked operand slot tile hit after) (h : residency.Room (answers + 1)) : after.Room answers := by
  have hhits := h.hits
  have hmisses := h.misses
  constructor
  · rw [hasked.hits]
    split <;> omega
  · rw [hasked.misses]
    split <;> omega

end Residency

namespace TilePlan

variable {plan : TilePlan} {geometry : Geometry} {gemm : Gemm}

theorem ofGemm_measured (h : TilePlan.ofGemm geometry gemm = .ok plan) : gemm.Measured geometry := by
  have hcuts := ofGemm_cuts h
  obtain rfl := eq_of_ofGemm h
  exact ⟨hcuts.array, hcuts.shape, hcuts.depth,
    fun operand => Nat.le_trans hcuts.bandStripes_pos (gemm.bandStripes_le geometry operand),
    Dvd.intro_left _ hcuts.commonTiles⟩

/-- The rows of a tile have a segment each. -/
theorem ofGemm_tileBytes (h : TilePlan.ofGemm geometry gemm = .ok plan) (operand : Operand) :
    (plan.operand operand).tileBytes = (plan.operand operand).tileRows * (plan.operand operand).segment := by
  have hmeasured := ofGemm_measured h
  rw [eq_of_ofGemm h, Gemm.plan_operand]
  exact hmeasured.tileBytes_eq operand

end TilePlan

namespace Layout

/-- The buffers of a product end where addresses still fit their words. -/
structure Housed (layout : Layout) : Prop where
  operand : ∀ operand, ∃ bytes, (layout.gemm.operand operand).bytes = .ok bytes ∧
    layout.addresses.operand operand + bytes < Word64.size
  result : ∃ bytes, layout.gemm.resultBytes = .ok bytes ∧ layout.addresses.result + bytes < Word64.size

/-- The bytes of a tile of each operand, which is the most that a step fetches. -/
def pairBytes (layout : Layout) : Nat := layout.plan.lhs.tileBytes + layout.plan.rhs.tileBytes

/-- The bytes of an output tile. -/
def outputBytes (layout : Layout) : Nat := layout.plan.lhs.tileRows * layout.plan.rhs.tileRows * elementBytes

/-- The tracker can count the tiles of a whole schedule, and a word can hold the bytes that they are at most. -/
structure CountsBytes (layout : Layout) (start : Residency) : Prop extends layout.Counts start where
  fetchBytes : layout.nest.outputCount * layout.nest.stepCount * layout.pairBytes < Word64.size

/-- What is left to count for a number of steps and output tiles has room. -/
structure Spare (layout : Layout) (steps outputs : Nat) (progress : Progress) : Prop where
  answers : progress.residency.Room (2 * steps)
  fetchBytes : progress.traffic.fetchBytes + steps * layout.pairBytes < Word64.size
  writeBytes : progress.traffic.writeBytes + outputs * layout.outputBytes < Word64.size

variable {layout : Layout} {operand : Operand} {bandPairs output step steps outputs answers : Nat} {progress : Progress}

section Transfers

variable {slot address bytes : Nat} {residency start middle last : Residency} {addresses : PerOperand Nat}
  {blocks : PerOperand (Option FetchBlock)}

/-- A tile can be asked for while its answer can be counted. -/
theorem transfer?_total (hcuts : layout.plan.Cuts layout.geometry layout.gemm) (hslot : slot < operandSlots)
    (hroom : residency.Room (answers + 1)) (operand : Operand) (address : Nat) :
    ∃ block after, layout.transfer? operand slot address residency = .ok (block, after) ∧ after.Room answers := by
  obtain ⟨⟨hit, after⟩, haccess, hasked⟩ :=
    (Residency.access_settles hslot operand (.ofAddress address)).total hroom.not_full
  have hafter := hasked.room hroom
  cases hit with
  | true => exact ⟨none, after, bind_eq_ok_iff.mpr ⟨_, haccess, rfl⟩, hafter⟩
  | false =>
    have hblock : ∃ block, layout.fetchBlock operand slot address = .ok block :=
      ⟨_, bind_of_ok (hcuts.segmentBytes_eq operand)⟩
    obtain ⟨block, hblock⟩ := hblock
    exact ⟨some block, after, bind_eq_ok_iff.mpr ⟨_, haccess, bind_eq_ok_iff.mpr ⟨block, hblock, rfl⟩⟩, hafter⟩

/-- A transfer moves no more than a tile. -/
theorem transfer?_bytes_le (hplan : TilePlan.ofGemm layout.geometry layout.gemm = .ok layout.plan)
    {block : Option FetchBlock} {after : Residency}
    (h : layout.transfer? operand slot address residency = .ok (block, after)) :
    block.elim 0 FetchBlock.bytes ≤ (layout.plan.operand operand).tileBytes := by
  cases block with
  | none => exact Nat.zero_le _
  | some block =>
    obtain rfl := eq_of_fetchBlock (TilePlan.ofGemm_cuts hplan) (transfer?_eq_some h)
    rw [TilePlan.ofGemm_tileBytes hplan, Nat.mul_comm (layout.plan.operand operand).tileRows]
    exact Nat.mul_le_mul (Word32.low_le _) (Word32.low_le _)

theorem StepWritten.bytes_le (h : layout.StepWritten output step addresses blocks start middle last bytes)
    (hplan : TilePlan.ofGemm layout.geometry layout.gemm = .ok layout.plan) : bytes ≤ layout.pairBytes := by
  obtain ⟨_, rfl⟩ := FetchCommand.bytes_eq_ok_iff.mp h.bytes
  exact Nat.add_le_add (transfer?_bytes_le hplan h.lhs) (transfer?_bytes_le hplan h.rhs)

theorem StepWritten.room (h : layout.StepWritten output step addresses blocks start middle last bytes)
    (hroom : start.Room (answers + 2)) : last.Room answers := by
  have hslot := layout.stepSlot_lt output step
  obtain ⟨⟨_, hlhs⟩, -⟩ := transfer?_eq_ok hslot h.lhs
  obtain ⟨⟨_, hrhs⟩, -⟩ := transfer?_eq_ok hslot h.rhs
  exact hrhs.room (hlhs.room hroom)

theorem checkTransfer_refuses (tile : TileIndex) (operand : Operand) (block : Option FetchBlock) :
    Fails Failure.IsRefusal (checkTransfer tile operand block) := by
  cases block with
  | none => exact .of_ok rfl
  | some block => exact .bind (.demandShape ⟨_, rfl⟩) fun _ _ => .demandShape ⟨_, rfl⟩

end Transfers

/-- What is written position by position ends as its positions do, if each of them keeps what the rest needs. -/
theorem writeEach_ends {α : Type} {allowed : Failure → Prop} {write : Nat → Progress → Except Failure (α × Progress)}
    {count position : Nat} {progress : Progress} {before : List α} (holds : Nat → Progress → Prop)
    (hwrite : ∀ index, index < position + count → ∀ left progress, holds (left + 1) progress →
      Ends allowed (write index progress) fun found => holds left found.2) (h : holds count progress) :
    Ends allowed (writeEach write count position progress before) fun found => holds 0 found.2 := by
  induction count generalizing position progress before with
  | zero => exact .ok h
  | succ count ih =>
    refine (hwrite position (by omega) count progress h).bind fun (written, next) hnext => ?_
    exact ih (fun index hindex => hwrite index (by omega)) hnext

section Writing

variable (hplan : TilePlan.ofGemm layout.geometry layout.gemm = .ok layout.plan) (hhoused : layout.Housed)

include hplan hhoused

theorem Housed.neededAddress (operand : Operand) (houtput : output < layout.nest.outputCount)
    (hstep : step < layout.nest.stepCount) : layout.neededAddress operand output step =
      .ok (layout.addresses.operand operand + layout.tileOffset operand (layout.neededTile operand output step)) := by
  obtain ⟨bytes, hbytes, hend⟩ := hhoused.operand operand
  exact (hasTile_needed houtput hstep).address (TilePlan.ofGemm_cuts hplan) hbytes hend

/-- A step whose answers and bytes can be counted is written or turned down. -/
theorem writeStep_refuses (houtput : output < layout.nest.outputCount) (hstep : step < layout.nest.stepCount)
    (hroom : progress.residency.Room 2) (hpair : layout.pairBytes < Word64.size)
    (hbytes : ∀ addresses blocks middle last bytes,
      layout.StepWritten output step addresses blocks progress.residency middle last bytes →
        progress.traffic.fetchBytes + bytes < Word64.size) :
    Fails Failure.IsRefusal (layout.writeStep bandPairs output step progress) := by
  have hcuts := TilePlan.ofGemm_cuts hplan
  have hslot := layout.stepSlot_lt output step
  have hneeded (operand : Operand) : ∃ address, layout.neededAddress operand output step = .ok address :=
    ⟨_, hhoused.neededAddress hplan operand houtput hstep⟩
  obtain ⟨addresses, haddress⟩ := PerOperand.exists_get hneeded
  obtain ⟨lhs, middle, hlhs, hmiddle⟩ := transfer?_total hcuts hslot hroom .lhs addresses.lhs
  obtain ⟨rhs, last, hrhs, -⟩ := transfer?_total hcuts hslot hmiddle .rhs addresses.rhs
  have hle := Nat.add_le_add (transfer?_bytes_le hplan hlhs) (transfer?_bytes_le hplan hrhs)
  obtain ⟨bytes, hcommand⟩ : ∃ bytes, (layout.fetchCommand (layout.stepSlot output step) ⟨lhs, rhs⟩).bytes =
    .ok bytes := ⟨_, FetchCommand.bytes_eq_ok_iff.mpr ⟨Nat.lt_of_le_of_lt hle hpair, rfl⟩⟩
  have hlhsAddress : layout.tileAddress .lhs (layout.nest.stepIndex step).lhsPlane (layout.nest.lhsTile output)
    (layout.nest.stepIndex step).common = .ok addresses.lhs := haddress .lhs
  have hrhsAddress : layout.tileAddress .rhs (layout.nest.stepIndex step).rhsPlane (layout.nest.rhsTile output)
    (layout.nest.stepIndex step).common = .ok addresses.rhs := haddress .rhs
  unfold writeStep
  dsimp only
  rw [lift_bind_of_ok hlhsAddress, lift_bind_of_ok hrhsAddress, ← stepSlot, lift_bind_of_ok hlhs, lift_bind_of_ok hrhs]
  refine .bind (checkTransfer_refuses _ _ _) fun _ hlhsAligned => ?_
  refine .bind (checkTransfer_refuses _ _ _) fun _ hrhsAligned => ?_
  have hwritten : layout.StepWritten output step addresses ⟨lhs, rhs⟩ progress.residency middle last bytes := by
    refine ⟨haddress, hlhs, hrhs, ?_, hcommand⟩
    rintro (_ | _)
    · exact hlhsAligned
    · exact hrhsAligned
  have hfits := Word64.add_eq_ok_iff.mpr ⟨hbytes _ _ _ _ _ hwritten, rfl⟩
  exact .of_ok (bind_eq_ok_iff.mpr ⟨_, lift_eq_ok_iff.mpr hcommand, bind_eq_ok_iff.mpr
    ⟨_, lift_eq_ok_iff.mpr hfits, rfl⟩⟩)

/-- A step has room for what comes after it, if there was room for it as well. -/
theorem writeStep_ends (houtput : output < layout.nest.outputCount) (hstep : step < layout.nest.stepCount)
    (hspare : layout.Spare (steps + 1) outputs progress) :
    Ends Failure.IsRefusal (layout.writeStep bandPairs output step progress) fun found =>
      layout.Spare steps outputs found.2 := by
  have hanswers : progress.residency.Room (2 * steps + 2) := hspare.answers
  have hbytes := hspare.fetchBytes
  rw [Nat.succ_mul] at hbytes
  refine ⟨writeStep_refuses hplan hhoused houtput hstep ⟨?_, ?_⟩ (by omega) ?_, ?_⟩
  · have hhits := hanswers.hits
    omega
  · have hmisses := hanswers.misses
    omega
  · intro addresses blocks middle last bytes hwritten
    have hle := hwritten.bytes_le hplan
    omega
  · rintro ⟨written, next⟩ hnext
    obtain ⟨addresses, blocks, middle, bytes, hwritten, -, htraffic, -⟩ := writeStep_eq_ok_iff.mp hnext
    have hle := hwritten.bytes_le hplan
    refine ⟨hwritten.room hanswers, ?_, ?_⟩
    · rw [htraffic]
      dsimp only
      omega
    · rw [htraffic]
      exact hspare.writeBytes

/-- An output tile has an address in the result. -/
theorem resultCommand_total (houtput : output < layout.nest.outputCount) :
    ∃ command, layout.resultCommand output = .ok command := by
  have hcuts := TilePlan.ofGemm_cuts hplan
  obtain ⟨bytes, hbytes, hend⟩ := hhoused.result
  obtain rfl := Gemm.resultBytes_eq hbytes
  rw [Nat.mul_comm layout.gemm.lhs.paddedRows] at hend
  obtain ⟨hlhsTile, hrhsTile⟩ := LoopNest.rowTile_lt houtput
  have hlhsEnd : layout.nest.lhsTile output * layout.plan.lhs.tileRows + layout.plan.lhs.tileRows ≤
      layout.gemm.lhs.paddedRows := hcuts.tile_end .lhs hlhsTile
  have hrhsEnd : layout.nest.rhsTile output * layout.plan.rhs.tileRows + layout.plan.rhs.tileRows ≤
      layout.gemm.rhs.paddedRows := hcuts.tile_end .rhs hrhsTile
  have hlhsPos : 0 < layout.plan.lhs.tileRows := (hcuts.tiling .lhs).tileRows_pos
  have hrhsPos : 0 < layout.plan.rhs.tileRows := (hcuts.tiling .rhs).tileRows_pos
  have helement : layout.nest.rhsTile output * layout.plan.rhs.tileRows * layout.gemm.lhs.paddedRows +
      layout.nest.lhsTile output * layout.plan.lhs.tileRows < layout.gemm.rhs.paddedRows * layout.gemm.lhs.paddedRows :=
    mul_add_lt_mul (by omega) (by omega)
  have hrhsRow : layout.nest.rhsTile output * layout.plan.rhs.tileRows ≤
      layout.nest.rhsTile output * layout.plan.rhs.tileRows * layout.gemm.lhs.paddedRows :=
    Nat.le_mul_of_pos_right _ (by omega)
  have hrow : layout.gemm.lhs.paddedRows ≤ layout.gemm.rhs.paddedRows * layout.gemm.lhs.paddedRows :=
    Nat.le_mul_of_pos_left _ (by omega)
  unfold elementBytes at hend
  -- every number on the way is at most the bytes of the result
  simp only [resultCommand, bind_eq_ok_iff, pure_eq_ok_iff, Word64.mul_eq_ok_iff, Word64.add_eq_ok_iff, elementBytes]
  exact ⟨_, _, ⟨by omega, rfl⟩, _, ⟨by omega, rfl⟩, _, ⟨by omega, rfl⟩, _, ⟨by omega, rfl⟩, _, ⟨by omega, rfl⟩, _,
    ⟨by omega, rfl⟩, _, ⟨by omega, rfl⟩, rfl⟩

/-- An output tile has room for what comes after it, if there was room for it as well. -/
theorem writeResult_ends (houtput : output < layout.nest.outputCount)
    (hspare : layout.Spare steps (outputs + 1) progress) :
    Ends Failure.IsRefusal (layout.writeResult bandPairs output progress) fun found =>
      layout.Spare steps outputs found.2 := by
  have hroom := hspare.writeBytes
  rw [Nat.succ_mul] at hroom
  obtain ⟨command, hcommand⟩ := resultCommand_total hplan hhoused houtput
  obtain ⟨bytes, hbytes, hle⟩ : ∃ bytes, command.bytes = .ok bytes ∧ bytes ≤ layout.outputBytes := by
    have hle : command.lhsRows * command.rhsRows * elementBytes ≤ layout.outputBytes := by
      rw [resultCommand_eq hcommand]
      exact Nat.mul_le_mul_right _ (Nat.mul_le_mul (Word32.low_le _) (Word32.low_le _))
    exact ⟨_, Word64.mul_eq_ok_iff.mpr ⟨by omega, rfl⟩, hle⟩
  have hsum : Word64.add progress.traffic.writeBytes bytes = .ok _ := Word64.add_eq_ok_iff.mpr ⟨by omega, rfl⟩
  unfold writeResult
  rw [lift_bind_of_ok hcommand]
  refine (Ends.of_fails (.demandShape ⟨_, rfl⟩)).bind fun _ _ => ?_
  rw [lift_bind_of_ok hbytes, lift_bind_of_ok hsum]
  refine .ok ⟨hspare.answers, hspare.fetchBytes, ?_⟩
  dsimp only
  omega

theorem writeOutput_ends (houtput : output < layout.nest.outputCount)
    (hspare : layout.Spare ((outputs + 1) * layout.nest.stepCount) (outputs + 1) progress) :
    Ends Failure.IsRefusal (layout.writeOutput bandPairs output progress) fun found =>
      layout.Spare (outputs * layout.nest.stepCount) outputs found.2 := by
  rw [Nat.succ_mul] at hspare
  refine (writeEach_ends (fun left => layout.Spare (outputs * layout.nest.stepCount + left) (outputs + 1))
    (fun step hstep left progress hspare => ?_) hspare).bind fun (written, middle) hmiddle => ?_
  · rw [Nat.zero_add] at hstep
    exact writeStep_ends hplan hhoused houtput hstep hspare
  · refine (writeResult_ends hplan hhoused houtput hmiddle).bind fun (result, next) hnext => ?_
    exact .ok hnext

/-- All output tiles together write the result. -/
theorem outputBytes_mul : ∃ bytes, layout.gemm.resultBytes = .ok bytes ∧ bytes < Word64.size ∧
    layout.nest.outputCount * layout.outputBytes = bytes := by
  have hcuts := TilePlan.ofGemm_cuts hplan
  obtain ⟨bytes, hbytes, hend⟩ := hhoused.result
  have hlhs : layout.plan.lhs.rowTiles * layout.plan.lhs.tileRows = layout.gemm.lhs.paddedRows :=
    (hcuts.tiling .lhs).rowTiles
  have hrhs : layout.plan.rhs.rowTiles * layout.plan.rhs.tileRows = layout.gemm.rhs.paddedRows :=
    (hcuts.tiling .rhs).rowTiles
  refine ⟨bytes, hbytes, by omega, ?_⟩
  rw [Gemm.resultBytes_eq hbytes, ← hlhs, ← hrhs]
  change layout.plan.lhs.rowTiles * layout.plan.rhs.rowTiles * (_ * _ * _) = _
  ring

/-- Pairs of bands can be counted. -/
theorem bandPairs_total : ∃ found, Word64.mul layout.plan.lhs.tileBands layout.plan.rhs.tileBands = .ok found := by
  obtain ⟨bytes, hbytes, hend⟩ := hhoused.result
  have hle := (TilePlan.ofGemm_cuts hplan).bandPairs_le (TilePlan.ofGemm_bands hplan) hbytes
  exact ⟨_, Word64.mul_eq_ok_iff.mpr ⟨by omega, rfl⟩⟩

/-- A schedule whose answers and bytes can be counted is written or turned down. -/
theorem schedule_fails {start : Residency} (hcounts : layout.CountsBytes start) :
    Fails Failure.IsRefusal (layout.schedule start) := by
  obtain ⟨found, hbandPairs⟩ := bandPairs_total hplan hhoused
  obtain ⟨bytes, hbytes, hsize, hwritten⟩ := outputBytes_mul hplan hhoused
  have hstart : layout.Spare (layout.nest.outputCount * layout.nest.stepCount) layout.nest.outputCount
      ⟨start, ⟨0, 0⟩⟩ := by
    refine ⟨⟨hcounts.hits, hcounts.misses⟩, ?_, ?_⟩
    · rw [Nat.zero_add]
      exact hcounts.fetchBytes
    · rw [Nat.zero_add, hwritten]
      exact hsize
  unfold schedule
  rw [lift_bind_of_ok hbandPairs]
  refine (writeEach_ends (fun left => layout.Spare (left * layout.nest.stepCount) left)
    (fun output houtput left progress hspare => ?_) hstart).1.bind fun (outputs, progress) _ => ?_
  · rw [Nat.zero_add] at houtput
    exact writeOutput_ends hplan hhoused houtput hspare
  · obtain ⟨result, hresult⟩ := announceTotal_eq_ok hbytes (outputs.map (·.result))
    exact .of_ok (bind_eq_ok_iff.mpr ⟨result, lift_eq_ok_iff.mpr hresult, rfl⟩)

/-- The schedule of an aligned product whose answers and bytes can be counted is written, if it takes nothing for
granted. -/
theorem schedule_total {start : Residency} (hcounts : layout.CountsBytes start)
    (hunknown : start.tiles = .both (.both none)) (haligned : layout.Aligned) :
    ∃ written, layout.schedule start = .ok written := by
  refine (schedule_aligned hplan hunknown fun hfault => ?_).1.mpr haligned
  obtain ⟨reason, hreason⟩ := schedule_fails hplan hhoused hcounts _ hfault
  cases hreason

end Writing

end Layout

end BitSerial
