import BitSerial.Proofs.Rebuilding

/-! # The programs by position

The three programs come out of nested loops, but each instruction can be told from its position alone: the loop indices
of a step are the digits of its position, with the extents of the loops as bases. What a fetch leaves out depends on the
tracker, which goes from step to step.
-/

namespace BitSerial

namespace LoopNest

/-- The loop indices of a step: digits with the extents of the loops as bases. -/
structure Digits (nest : LoopNest) where
  lhsTile : Nat
  rhsTile : Nat
  lhsPlane : Nat
  rhsPlane : Nat
  common : Nat
  lhsTile_lt : lhsTile < nest.lhsTiles
  rhsTile_lt : rhsTile < nest.rhsTiles
  lhsPlane_lt : lhsPlane < nest.lhsPlanes
  rhsPlane_lt : rhsPlane < nest.rhsPlanes
  common_lt : common < nest.commonTiles

namespace Digits

variable {nest : LoopNest} (digits : nest.Digits)

/-- The output tile that a step belongs to. -/
def output : Nat := digits.lhsTile * nest.rhsTiles + digits.rhsTile

/-- The position of a step within its output tile. -/
def step : Nat := (digits.lhsPlane * nest.rhsPlanes + digits.rhsPlane) * nest.commonTiles + digits.common

/-- The position of a step: the number that has these digits. -/
def position : Nat :=
  (((digits.lhsTile * nest.rhsTiles + digits.rhsTile) * nest.lhsPlanes + digits.lhsPlane) * nest.rhsPlanes +
    digits.rhsPlane) * nest.commonTiles + digits.common

/-- The row tile that a step needs of an operand. -/
def rowTile : Operand → Nat
  | .lhs => digits.lhsTile
  | .rhs => digits.rhsTile

/-- The bit plane that a step needs of an operand. -/
def plane : Operand → Nat
  | .lhs => digits.lhsPlane
  | .rhs => digits.rhsPlane

theorem output_lt : digits.output < nest.outputCount := mul_add_lt_mul digits.lhsTile_lt digits.rhsTile_lt

theorem step_lt : digits.step < nest.stepCount :=
  mul_add_lt_mul (mul_add_lt_mul digits.lhsPlane_lt digits.rhsPlane_lt) digits.common_lt

theorem position_eq : digits.position = digits.output * nest.stepCount + digits.step := by
  unfold position output step stepCount
  ring

theorem position_lt : digits.position < nest.outputCount * nest.stepCount :=
  digits.position_eq ▸ mul_add_lt_mul digits.output_lt digits.step_lt

theorem position_div_mod :
    digits.position / nest.stepCount = digits.output ∧ digits.position % nest.stepCount = digits.step :=
  digits.position_eq ▸ div_mod_of_lt digits.output digits.step_lt

/-- The digits are the loop indices that instructions are written for. -/
theorem indices_eq : nest.lhsTile digits.output = digits.lhsTile ∧ nest.rhsTile digits.output = digits.rhsTile ∧
    nest.stepIndex digits.step = ⟨digits.lhsPlane, digits.rhsPlane, digits.common⟩ := by
  obtain ⟨hlhsTile, hrhsTile⟩ := div_mod_of_lt digits.lhsTile digits.rhsTile_lt
  obtain ⟨hplanes, hcommon⟩ :=
    div_mod_of_lt (digits.lhsPlane * nest.rhsPlanes + digits.rhsPlane) digits.common_lt
  obtain ⟨hlhsPlane, hrhsPlane⟩ := div_mod_of_lt digits.lhsPlane digits.rhsPlane_lt
  refine ⟨hlhsTile, hrhsTile, ?_⟩
  rw [stepIndex, step, hplanes, hcommon, hlhsPlane, hrhsPlane]

theorem rowTile_eq (operand : Operand) : nest.rowTile operand digits.output = digits.rowTile operand := by
  cases operand with
  | lhs => exact digits.indices_eq.1
  | rhs => exact digits.indices_eq.2.1

theorem plane_eq (operand : Operand) : (nest.stepIndex digits.step).plane operand = digits.plane operand := by
  rw [digits.indices_eq.2.2]
  cases operand <;> rfl

/-- No two steps have the same position. -/
theorem position_injective : Function.Injective (position : nest.Digits → Nat) := by
  intro first second h
  obtain ⟨houtput, hstep⟩ := first.position_div_mod
  rw [h, second.position_div_mod.1] at houtput
  rw [h, second.position_div_mod.2] at hstep
  obtain ⟨hlhsTile, hrhsTile, hindex⟩ := first.indices_eq
  obtain ⟨hlhsTileSecond, hrhsTileSecond, hindexSecond⟩ := second.indices_eq
  rw [← houtput, hlhsTileSecond] at hlhsTile
  rw [← houtput, hrhsTileSecond] at hrhsTile
  rw [← hstep, hindexSecond] at hindex
  cases first
  cases second
  cases hlhsTile
  cases hrhsTile
  cases hindex
  rfl

end Digits

/-- Every position in the nest has digits. -/
theorem exists_digits (nest : LoopNest) {position : Nat} (h : position < nest.outputCount * nest.stepCount) :
    ∃ digits : nest.Digits, digits.position = position := by
  have hoverall : position / nest.stepCount < nest.outputCount := Nat.div_lt_of_lt_mul (Nat.mul_comm _ _ ▸ h)
  have hstepCount : 0 < nest.stepCount := Nat.pos_of_mul_pos_left (Nat.zero_lt_of_lt h)
  obtain ⟨hlhsTile, hrhsTile⟩ := rowTile_lt hoverall
  obtain ⟨hlhsPlane, hrhsPlane, hcommon⟩ := stepIndex_lt (Nat.mod_lt position hstepCount)
  let digits : nest.Digits := ⟨_, _, _, _, _, hlhsTile, hrhsTile, hlhsPlane, hrhsPlane, hcommon⟩
  have houtput : digits.output = position / nest.stepCount := Nat.div_add_mod' _ _
  have hstep : digits.step = position % nest.stepCount := by
    change (_ / nest.rhsPlanes * nest.rhsPlanes + _ % nest.rhsPlanes) * nest.commonTiles + _ % nest.commonTiles = _
    rw [Nat.div_add_mod', Nat.div_add_mod']
  exact ⟨digits, by rw [digits.position_eq, houtput, hstep, Nat.div_add_mod']⟩

end LoopNest

namespace Layout

section Positional

variable (layout : Layout)

/-- What is written for a step, given the tracker before it and after it. -/
structure StepPositional (perOutput : Nat) (digits : layout.nest.Digits) (before after : Residency)
    (fetch : Instruction FetchCommand) (execute : Instruction ExecuteCommand) : Prop where
  fetchTile : fetch.token.tile = ⟨digits.lhsTile, digits.rhsTile, digits.common⟩
  executeTile : execute.token.tile = ⟨digits.lhsTile, digits.rhsTile, digits.common⟩
  fetchSlot : fetch.command.slot = digits.position % operandSlots
  executeSlot : execute.command.operandSlot = digits.position % operandSlots
  repeats : fetch.token.repeats =
    (if fetch.command.blocks.lhs.isSome then 1 else 0) + if fetch.command.blocks.rhs.isSome then 1 else 0
  /-- The tracker is asked for both tiles, and what it does not know to be in the slot is transferred. -/
  asked : ∃ addresses : PerOperand Nat, ∃ middle : Residency,
    (∀ operand, layout.tileAddress operand (digits.plane operand) (digits.rowTile operand) digits.common =
        .ok (addresses.get operand) ∧
      (fetch.command.blocks.get operand = none ↔
        before.known operand (digits.position % operandSlots) = some (addresses.get operand))) ∧
    before.access .lhs (digits.position % operandSlots) (.ofAddress addresses.lhs) =
      .ok (fetch.command.blocks.lhs.isNone, middle) ∧
    middle.access .rhs (digits.position % operandSlots) (.ofAddress addresses.rhs) =
      .ok (fetch.command.blocks.rhs.isNone, after)
  resultSlot : execute.command.resultSlot = digits.position / perOutput % resultSlots
  clear : execute.command.clear = true ↔ digits.position % perOutput = 0
  commit : execute.command.commit = true ↔ digits.position % perOutput = perOutput - 1

/-- What a schedule is by position: the instructions of each step and of each output tile, and the tracker before each
step. -/
structure Positional (schedule : Schedule) (start last : Residency) (steps perOutput outputs : Nat)
    (tracker : Nat → Residency) : Prop where
  fetch_length : schedule.fetch.length = steps
  execute_length : schedule.execute.length = steps
  result_length : schedule.result.length = outputs
  digits : ∀ position < steps, ∃! digits : layout.nest.Digits, digits.position = position
  step : ∀ digits : layout.nest.Digits, ∃ fetch execute, schedule.fetch[digits.position]? = some fetch ∧
    schedule.execute[digits.position]? = some execute ∧
    layout.StepPositional perOutput digits (tracker digits.position) (tracker (digits.position + 1)) fetch execute
  result : ∀ output < outputs, ∃ result, schedule.result[output]? = some result ∧
    result.command.slot = output % resultSlots ∧
    result.token.tile = ⟨output / layout.nest.rhsTiles, output % layout.nest.rhsTiles, 0⟩
  tracker_start : tracker 0 = start
  tracker_last : tracker steps = last
  fetchBytes : schedule.traffic.fetchBytes =
    (schedule.fetch.map fun instruction => (instruction.command.transferList.map FetchBlock.bytes).sum).sum
  accesses : last.hits + last.misses = start.hits + start.misses + 2 * steps

end Positional

variable {layout : Layout}

/-- The counts of a nest whose steps can be counted. -/
theorem nest_counts_eq (hcuts : layout.plan.Cuts layout.geometry layout.gemm)
    (hsmall : ∀ operand, ∃ bytes, (layout.gemm.operand operand).bytes = .ok bytes ∧ bytes < Word32.size) :
    layout.nest.outputTiles = .ok layout.nest.outputCount ∧ layout.nest.stepsPerOutput = .ok layout.nest.stepCount := by
  have hsteps := nest_steps_eq hcuts hsmall
  simp only [LoopNest.steps, bind_eq_ok_iff] at hsteps
  obtain ⟨outputs, houtputs, perOutput, hperOutput, _⟩ := hsteps
  obtain ⟨_, rfl⟩ := Word64.mul_eq_ok_iff.mp houtputs
  refine ⟨houtputs, hperOutput.trans ?_⟩
  simp only [LoopNest.stepsPerOutput, bind_eq_ok_iff, Word64.mul_eq_ok_iff] at hperOutput
  obtain ⟨_, ⟨_, rfl⟩, _, rfl⟩ := hperOutput
  rfl

/-- The tiles of operands that are small enough for their commands can be named. -/
theorem tiles_lt (hcuts : layout.plan.Cuts layout.geometry layout.gemm)
    (hsmall : ∀ operand, ∃ bytes, (layout.gemm.operand operand).bytes = .ok bytes ∧ bytes < Word32.size)
    (operand : Operand) :
    (layout.plan.operand operand).rowTiles < Word32.size ∧ layout.plan.commonTiles < Word32.size := by
  obtain ⟨bytes, hbytes, hlt⟩ := hsmall operand
  have hle := tiles_le_bytes hcuts hbytes
  have hbits := (hcuts.shape operand).bits_pos
  have hrowTiles := hcuts.rowTiles_pos operand
  have hcommon := hcuts.commonTiles_pos
  constructor
  · calc (layout.plan.operand operand).rowTiles
        ≤ (layout.gemm.operand operand).bits * (layout.plan.operand operand).rowTiles :=
          Nat.le_mul_of_pos_left _ hbits
      _ ≤ (layout.gemm.operand operand).bits * (layout.plan.operand operand).rowTiles * layout.plan.commonTiles :=
          Nat.le_mul_of_pos_right _ hcommon
      _ < Word32.size := Nat.lt_of_le_of_lt hle hlt
  · calc layout.plan.commonTiles
        ≤ (layout.gemm.operand operand).bits * (layout.plan.operand operand).rowTiles * layout.plan.commonTiles :=
          Nat.le_mul_of_pos_left _ (Nat.mul_pos hbits hrowTiles)
      _ < Word32.size := Nat.lt_of_le_of_lt hle hlt

theorem tileIndex_eq (hcuts : layout.plan.Cuts layout.geometry layout.gemm)
    (hsmall : ∀ operand, ∃ bytes, (layout.gemm.operand operand).bytes = .ok bytes ∧ bytes < Word32.size)
    (digits : layout.nest.Digits) :
    layout.tileIndex digits.output digits.step = ⟨digits.lhsTile, digits.rhsTile, digits.common⟩ := by
  obtain ⟨hlhsTile, hrhsTile, hindex⟩ := digits.indices_eq
  obtain ⟨hlhsTiles, hcommonTiles⟩ := tiles_lt hcuts hsmall .lhs
  obtain ⟨hrhsTiles, _⟩ := tiles_lt hcuts hsmall .rhs
  rw [tileIndex, hlhsTile, hrhsTile, hindex, Word32.low_eq_self (Nat.lt_trans digits.lhsTile_lt hlhsTiles),
    Word32.low_eq_self (Nat.lt_trans digits.rhsTile_lt hrhsTiles),
    Word32.low_eq_self (Nat.lt_trans digits.common_lt hcommonTiles)]

/-- Whether a tile is transferred is what the tracker answers. -/
theorem transfer?_access {operand : Operand} {slot address : Nat} {block : Option FetchBlock}
    {residency after : Residency} (h : layout.transfer? operand slot address residency = .ok (block, after)) :
    residency.access operand slot (.ofAddress address) = .ok (block.isNone, after) := by
  simp only [transfer?, bind_eq_ok_iff, Prod.exists] at h
  obtain ⟨hit, next, haccess, h⟩ := h
  cases hit with
  | true =>
    cases h
    exact haccess
  | false =>
    simp only [Bool.false_eq_true, if_false, bind_eq_ok_iff, pure_eq_ok_iff, Prod.mk.injEq] at h
    obtain ⟨_, _, rfl, rfl⟩ := h
    exact haccess

namespace StepWritten

variable {output step bytes : Nat} {addresses : PerOperand Nat} {blocks : PerOperand (Option FetchBlock)}
  {before middle after : Residency}

/-- A tile that is transferred begins at a whole word of memory, so it has an identity. -/
theorem address_ne_of_some (h : layout.StepWritten output step addresses blocks before middle after bytes)
    {operand : Operand} {block : FetchBlock} (hblock : blocks.get operand = some block) :
    addresses.get operand ≠ Word64.size - 1 := by
  have haligned := h.aligned operand
  rw [hblock] at haligned
  simp only [checkTransfer, bind_eq_ok_iff, demandShape_eq_ok_iff] at haligned
  obtain ⟨_, haddress, _⟩ := haligned
  rcases (h.known operand).2 with ⟨found, hfound, hbegin⟩ | ⟨hnone, _⟩
  · obtain rfl := Option.some.inj (hblock.symm.trans hfound)
    rw [hbegin] at haddress
    intro hlast
    rw [hlast] at haddress
    exact absurd haddress (by decide)
  · rw [hnone] at hblock
    cases hblock

/-- A transfer is left out exactly if the tracker knows the tile to be in the slot. -/
theorem eq_none_iff (h : layout.StepWritten output step addresses blocks before middle after bytes)
    (operand : Operand) :
    blocks.get operand = none ↔
      before.known operand (layout.stepSlot output step) = some (addresses.get operand) := by
  have hslot := layout.stepSlot_lt output step
  obtain ⟨⟨_, hasked⟩, _⟩ := transfer?_eq_ok hslot h.lhs
  rcases (h.known operand).2 with ⟨block, hblock, _⟩ | ⟨hnone, hknown⟩
  · refine iff_of_false (by rw [hblock]; nofun) fun hknown => ?_
    have hidentity := h.address_ne_of_some hblock
    rw [← TileIdentity.ofAddress_of_ne hidentity] at hknown
    have hnone : blocks.get operand = none := by
      cases operand with
      | lhs => exact transfer?_of_known hslot h.lhs hknown hidentity
      | rhs => exact transfer?_of_known hslot h.rhs ((hasked.others .rhs _ hslot (.inl nofun)).trans hknown) hidentity
    rw [hnone] at hblock
    cases hblock
  · exact iff_of_true hnone hknown

/-- A step asks the tracker twice. -/
theorem accesses (h : layout.StepWritten output step addresses blocks before middle after bytes) :
    after.hits + after.misses = before.hits + before.misses + 2 := by
  have hslot := layout.stepSlot_lt output step
  obtain ⟨⟨lhsHit, hlhs⟩, _⟩ := transfer?_eq_ok hslot h.lhs
  obtain ⟨⟨rhsHit, hrhs⟩, _⟩ := transfer?_eq_ok hslot h.rhs
  rw [hrhs.hits, hrhs.misses, hlhs.hits, hlhs.misses]
  cases lhsHit <;> cases rhsHit <;> simp <;> omega

/-- The instructions of a step, if its tile index has room. -/
theorem positional {digits : layout.nest.Digits}
    (h : layout.StepWritten digits.output digits.step addresses blocks before middle after bytes)
    (htile : layout.tileIndex digits.output digits.step = ⟨digits.lhsTile, digits.rhsTile, digits.common⟩)
    (bandPairs : Nat) :
    layout.StepPositional layout.nest.stepCount digits before after
      (layout.stepWith bandPairs digits.output digits.step blocks).fetch
      (layout.stepWith bandPairs digits.output digits.step blocks).execute := by
  obtain ⟨hdiv, hmod⟩ := digits.position_div_mod
  have hslot : layout.stepSlot digits.output digits.step = digits.position % operandSlots := by
    rw [stepSlot, digits.position_eq]
  have hpos : 0 < layout.nest.stepCount := Nat.zero_lt_of_lt digits.step_lt
  constructor
  case fetchTile => exact htile
  case executeTile => exact htile
  case fetchSlot => exact hslot
  case executeSlot => exact hslot
  case repeats =>
    change (blocks.lhs.toList ++ blocks.rhs.toList).length =
      (if blocks.lhs.isSome then 1 else 0) + if blocks.rhs.isSome then 1 else 0
    cases blocks.lhs <;> cases blocks.rhs <;> rfl
  case asked =>
    refine ⟨addresses, middle, fun operand => ⟨?_, ?_⟩, ?_, ?_⟩
    · have haddress := h.address operand
      rwa [neededAddress, digits.plane_eq, digits.rowTile_eq, digits.indices_eq.2.2] at haddress
    · exact hslot ▸ h.eq_none_iff operand
    · exact hslot ▸ transfer?_access h.lhs
    · exact hslot ▸ transfer?_access h.rhs
  case resultSlot =>
    rw [hdiv]
    rfl
  case clear =>
    rw [hmod]
    exact beq_iff_eq
  case commit =>
    rw [hmod]
    change (digits.step + 1 == layout.nest.stepCount) = true ↔ _
    rw [beq_iff_eq]
    omega

end StepWritten

end Layout

/-- A fetch reads what its transfers move. -/
theorem FetchCommand.bytesRead_eq (command : FetchCommand) :
    (Command.fetch command).bytesRead = (command.transferList.map FetchBlock.bytes).sum := by
  obtain ⟨slot, ⟨lhs, rhs⟩, segmentWords⟩ := command
  cases lhs <;> cases rhs <;> simp [Command.bytesRead, transferList]

/-- Every schedule of operands that are small enough for its commands is told by position: as many fetch and execute
instructions as the nest has steps, each for the digits of its position, and as many result instructions as it has
output tiles. -/
theorem schedule_positional {layout : Layout}
    (hplan : TilePlan.ofGemm layout.geometry layout.gemm = .ok layout.plan)
    (hsmall : ∀ operand, ∃ bytes, (layout.gemm.operand operand).bytes = .ok bytes ∧ bytes < Word32.size)
    {start last : Residency} {schedule : Schedule} (hschedule : layout.schedule start = .ok (schedule, last)) :
    schedule.nest = layout.nest ∧ ∃ steps perOutput outputs tracker, layout.nest.steps = .ok steps ∧
      layout.nest.stepsPerOutput = .ok perOutput ∧ layout.nest.outputTiles = .ok outputs ∧
      layout.Positional schedule start last steps perOutput outputs tracker := by
  have hcuts := TilePlan.ofGemm_cuts hplan
  obtain ⟨houtputs, hperOutput⟩ := Layout.nest_counts_eq hcuts hsmall
  obtain ⟨bandPairs, written, results, hwritten⟩ := Layout.schedule_written hschedule
  obtain ⟨before, hzero, hlast, hlink, -⟩ := hwritten.trackers
  refine ⟨hwritten.nest, _, _, _, fun position => (before position).1, Layout.nest_steps_eq hcuts hsmall, hperOutput,
    houtputs, ?_⟩
  have hlength := hwritten.steps_length
  constructor
  case fetch_length => rw [hwritten.fetch, List.length_map, hlength]
  case execute_length => rw [hwritten.execute, List.length_map, hlength]
  case result_length => exact hwritten.result_length
  case digits =>
    intro position hposition
    obtain ⟨digits, rfl⟩ := layout.nest.exists_digits hposition
    exact ⟨digits, rfl, fun other hother => LoopNest.Digits.position_injective hother⟩
  case step =>
    intro digits
    have hposition : digits.position < written.length := hlength ▸ digits.position_lt
    obtain ⟨hdiv, hmod⟩ := digits.position_div_mod
    obtain ⟨addresses, blocks, middle, bytes, hstep, _, heq⟩ := hlink digits.position hposition
    rw [hdiv, hmod] at hstep heq
    refine ⟨_, _, ?_, ?_, hstep.positional (Layout.tileIndex_eq hcuts hsmall digits) bandPairs⟩
    · rw [hwritten.fetch, List.getElem?_map, List.getElem?_eq_getElem hposition, heq]
      rfl
    · rw [hwritten.execute, List.getElem?_map, List.getElem?_eq_getElem hposition, heq]
      rfl
  case result =>
    intro output houtput
    have hat := List.getElem?_eq_getElem (hwritten.result_length ▸ houtput : output < schedule.result.length)
    obtain ⟨_, hcommand, htoken⟩ := hwritten.result_eq hat
    obtain ⟨hlhsTile, hrhsTile⟩ := LoopNest.rowTile_lt houtput
    have hlhs : Word32.low (layout.nest.lhsTile output) = layout.nest.lhsTile output :=
      Word32.low_eq_self (Nat.lt_trans hlhsTile (Layout.tiles_lt hcuts hsmall .lhs).1)
    have hrhs : Word32.low (layout.nest.rhsTile output) = layout.nest.rhsTile output :=
      Word32.low_eq_self (Nat.lt_trans hrhsTile (Layout.tiles_lt hcuts hsmall .rhs).1)
    refine ⟨_, hat, by rw [hcommand], ?_⟩
    rw [htoken, hlhs, hrhs]
    rfl
  case tracker_start => rw [hzero]
  case tracker_last => rw [← hlength, hlast]
  case fetchBytes =>
    rw [hwritten.fetchBytes_eq, moved, Schedule.program, List.map_map]
    exact congrArg List.sum (List.map_congr_left fun instruction _ => instruction.command.bytesRead_eq)
  case accesses =>
    have hcount := hwritten.steps_chain.total (fun state => state.1.hits + state.1.misses) (fun _ => 2) ?_
    · rw [List.map_const', List.sum_replicate_nat, hlength] at hcount
      dsimp only at hcount
      omega
    · rintro _ _ _ _ ⟨_, _, _, _, hstep, _, _⟩
      exact hstep.accesses

/-- The tiled product takes 24 steps, four to each of its six output tiles. -/
theorem schedule_positional_tiled :
    ∃ schedule last tracker, tiledLayout.schedule .fresh = .ok (schedule, last) ∧
      tiledLayout.Positional schedule .fresh last 24 4 6 tracker := by
  have hwrites : (tiledLayout.schedule .fresh).toOption.isSome := by decide +kernel
  obtain ⟨⟨schedule, last⟩, hwrites⟩ := Option.isSome_iff_exists.mp hwrites
  have hschedule := toOption_eq_some_iff.mp hwrites
  obtain ⟨-, steps, perOutput, outputs, tracker, hsteps, hperOutput, houtputs, hpositional⟩ :=
    schedule_positional tiledLayout_plan tiledLayout_small hschedule
  have hnest : tiledLayout.nest.steps = .ok 24 ∧ tiledLayout.nest.stepsPerOutput = .ok 4 ∧
      tiledLayout.nest.outputTiles = .ok 6 := by
    refine ⟨?_, ?_, ?_⟩ <;> exact toOption_eq_some_iff.mp (by decide +kernel)
  obtain rfl := Except.ok.inj (hsteps.symm.trans hnest.1)
  obtain rfl := Except.ok.inj (hperOutput.symm.trans hnest.2.1)
  obtain rfl := Except.ok.inj (houtputs.symm.trans hnest.2.2)
  exact ⟨schedule, last, tracker, hschedule, hpositional⟩

end BitSerial
