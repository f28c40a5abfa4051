import BitSerial.Proofs.Banks
import BitSerial.Proofs.Product

/-! # When the fields of instructions are exact

The fields of commands and tokens keep the low 32 bits of what is written to them, and most of them have room for it: a
word of an on-chip memory is within the capacity of the array, and the largest shift was checked with the plan. What is
left are products and quotients of the shape and the capacity together, which no check bounds: the pairs of bands of two
tiles, the rows of a tile, the numbers of tiles and the distance of the rows of an operand. A schedule is exact if and only
if these few numbers have room, and they have it whenever the operands and the result do.
-/

namespace BitSerial

namespace Layout

section Exact

variable (layout : Layout)

/-- The tile index of a step of an output tile, without bound. -/
def tileAt (output step : Nat) : TileIndex :=
  ⟨layout.nest.lhsTile output, layout.nest.rhsTile output, (layout.nest.stepIndex step).common⟩

/-- The pairs of bands of two tiles, without bound. -/
def bandPairs : Nat := layout.plan.lhs.tileBands * layout.plan.rhs.tileBands

/-- The fields of a transfer into a slot are the numbers that they stand for. -/
structure BlockExact (operand : Operand) (slot : Nat) (block : FetchBlock) : Prop where
  blockBytes : block.blockBytes = (layout.plan.operand operand).segment
  strideBytes : block.strideBytes = (layout.gemm.operand operand).rowBytes
  blockCount : block.blockCount = (layout.plan.operand operand).tileRows
  firstWord : block.firstWord = slot * (layout.plan.operand operand).slotStripes
  memoryCount : block.memoryCount = (layout.plan.operand operand).dim

/-- The fields of a fetch instruction are the numbers that they stand for. -/
structure FetchExact (output step : Nat) (instruction : Instruction FetchCommand) : Prop where
  tile : instruction.token.tile = layout.tileAt output step
  repeats : instruction.token.repeats = instruction.command.transfers
  slot : instruction.command.slot = layout.stepSlot output step
  segmentWords : instruction.command.segmentWords = layout.plan.bandStripes
  blocks : ∀ operand block, instruction.command.blocks.get operand = some block →
    layout.BlockExact operand (layout.stepSlot output step) block

/-- The fields of an execute instruction are the numbers that they stand for. -/
structure ExecuteExact (output step : Nat) (instruction : Instruction ExecuteCommand) : Prop where
  tile : instruction.token.tile = layout.tileAt output step
  repeats : instruction.token.repeats = layout.bandPairs
  operandSlot : instruction.command.operandSlot = layout.stepSlot output step
  resultSlot : instruction.command.resultSlot = output % resultSlots
  firstWord : ∀ operand, instruction.command.firstWord operand =
    layout.stepSlot output step * (layout.plan.operand operand).slotStripes
  stripes : instruction.command.stripes = layout.plan.bandStripes
  bands : ∀ operand, instruction.command.bands operand = (layout.plan.operand operand).tileBands
  shift : instruction.command.shift =
    (layout.nest.stepIndex step).lhsPlane + (layout.nest.stepIndex step).rhsPlane

/-- The fields of a result instruction are the numbers that they stand for. -/
structure ResultExact (output : Nat) (instruction : Instruction ResultCommand) : Prop where
  tile : instruction.token.tile = ⟨layout.nest.lhsTile output, layout.nest.rhsTile output, 0⟩
  repeats : instruction.token.repeats = layout.bandPairs
  slot : instruction.command.slot = output % resultSlots
  lhsRows : instruction.command.lhsRows = layout.plan.lhs.tileRows
  rhsRows : instruction.command.rhsRows = layout.plan.rhs.tileRows

/-- No field of a schedule lost anything. -/
structure ScheduleExact (schedule : Schedule) : Prop where
  fetch : ∀ position instruction, schedule.fetch[position]? = some instruction →
    layout.FetchExact (position / layout.nest.stepCount) (position % layout.nest.stepCount) instruction
  execute : ∀ position instruction, schedule.execute[position]? = some instruction →
    layout.ExecuteExact (position / layout.nest.stepCount) (position % layout.nest.stepCount) instruction
  result : ∀ output instruction, schedule.result[output]? = some instruction → layout.ResultExact output instruction

/-- The numbers that no check bounds have room in the fields of a schedule. The distance of rows is written only if a tile
of the operand is transferred. -/
structure Narrow (schedule : Schedule) : Prop where
  bandPairs : layout.bandPairs < Word32.size
  tileRows : ∀ operand, (layout.plan.operand operand).tileRows < Word32.size
  rowTiles : ∀ operand, (layout.plan.operand operand).rowTiles ≤ Word32.size
  commonTiles : layout.plan.commonTiles ≤ Word32.size
  rowBytes : ∀ operand, (∃ instruction ∈ schedule.fetch, (instruction.command.blocks.get operand).isSome) →
    (layout.gemm.operand operand).rowBytes < Word32.size

end Exact

variable {layout : Layout} {operand : Operand} {output step : Nat}

/-- A tile index has room for a step if it has room for the tiles that the step needs. -/
theorem tileIndex_eq_iff : layout.tileIndex output step = layout.tileAt output step ↔
    ∀ operand, (layout.neededTile operand output step).rowTile < Word32.size ∧
      (layout.neededTile operand output step).common < Word32.size := by
  rw [tileIndex, tileAt, TileIndex.mk.injEq, Word32.low_eq_self_iff, Word32.low_eq_self_iff, Word32.low_eq_self_iff]
  constructor
  · rintro ⟨hlhs, hrhs, hcommon⟩ (_ | _)
    · exact ⟨hlhs, hcommon⟩
    · exact ⟨hrhs, hcommon⟩
  · intro h
    exact ⟨(h .lhs).1, (h .rhs).1, (h .lhs).2⟩

/-- Tile indices have room for all steps if they have room for the last tiles. -/
theorem tileIndex_eq_of_narrow {schedule : Schedule} (hnarrow : layout.Narrow schedule)
    (houtput : output < layout.nest.outputCount) (hstep : step < layout.nest.stepCount) :
    layout.tileIndex output step = layout.tileAt output step := by
  apply tileIndex_eq_iff.mpr
  intro operand
  have htile : layout.HasTile operand (layout.neededTile operand output step) := hasTile_needed houtput hstep
  exact ⟨Nat.lt_of_lt_of_le htile.rowTile (hnarrow.rowTiles operand),
    Nat.lt_of_lt_of_le htile.common hnarrow.commonTiles⟩

section Instructions

variable (hfits : layout.geometry.Fits) (hplan : TilePlan.ofGemm layout.geometry layout.gemm = .ok layout.plan)
include hfits hplan

/-- A transfer is exact if its stride and its rows have room. -/
theorem blockExact_iff {address : Nat} {block : FetchBlock}
    (hblock : layout.fetchBlock operand (layout.stepSlot output step) address = .ok block) :
    layout.BlockExact operand (layout.stepSlot output step) block ↔
      (layout.gemm.operand operand).rowBytes < Word32.size ∧
        (layout.plan.operand operand).tileRows < Word32.size := by
  have hcuts := TilePlan.ofGemm_cuts hplan
  have hfields := eq_of_fetchBlock hcuts hblock
  obtain ⟨-, -, hslotWord⟩ := slot_fields hfits hplan operand output step
  constructor
  · intro hexact
    have hstride := hexact.strideBytes
    have hcount := hexact.blockCount
    rw [hfields] at hstride hcount
    exact ⟨Word32.low_eq_self_iff.mp hstride, Word32.low_eq_self_iff.mp hcount⟩
  · rintro ⟨hrowBytes, htileRows⟩
    have hdim : (layout.plan.operand operand).dim < Word32.size := by
      rw [(hcuts.tiling operand).dim]
      exact hfits.dim_lt operand
    rw [hfields]
    exact ⟨Word32.low_eq_self (Nat.lt_of_le_of_lt (hcuts.segment_le operand) hrowBytes), Word32.low_eq_self hrowBytes,
      Word32.low_eq_self htileRows, hslotWord, Word32.low_eq_self hdim⟩

/-- An execute instruction is exact if its token is. -/
theorem executeExact_iff (hstep : step < layout.nest.stepCount) (repeats : Nat)
    (blocks : PerOperand (Option FetchBlock)) :
    layout.ExecuteExact output step (layout.stepWith repeats output step blocks).execute ↔
      layout.tileIndex output step = layout.tileAt output step ∧ repeats = layout.bandPairs := by
  constructor
  · intro hexact
    exact ⟨hexact.tile, hexact.repeats⟩
  · rintro ⟨htile, hrepeats⟩
    obtain ⟨hshift, -⟩ := TilePlan.ofGemm_shift hplan
    constructor
    case tile => exact htile
    case repeats => exact hrepeats
    case operandSlot => rfl
    case resultSlot => rfl
    case firstWord =>
      intro operand
      rw [← (slot_fields hfits hplan operand output step).2.2]
      cases operand <;> rfl
    case stripes => exact (slot_fields hfits hplan .lhs output step).1
    case bands =>
      intro operand
      rw [← (slot_fields hfits hplan operand output step).2.1]
      cases operand <;> rfl
    case shift => exact (executeCommand_shift hshift hstep output _).1

/-- A fetch instruction is exact if its tile index is and what it transfers has room. -/
theorem fetchExact_iff {repeats bytes : Nat} {addresses : PerOperand Nat} {blocks : PerOperand (Option FetchBlock)}
    {start middle last : Residency} (hwritten : layout.StepWritten output step addresses blocks start middle last bytes) :
    layout.FetchExact output step (layout.stepWith repeats output step blocks).fetch ↔
      layout.tileIndex output step = layout.tileAt output step ∧
        ∀ operand, (blocks.get operand).isSome → (layout.gemm.operand operand).rowBytes < Word32.size ∧
          (layout.plan.operand operand).tileRows < Word32.size := by
  constructor
  · intro hexact
    refine ⟨hexact.tile, fun operand hsome => ?_⟩
    obtain ⟨block, hblock⟩ := Option.isSome_iff_exists.mp hsome
    exact (blockExact_iff hfits hplan (hwritten.fetchBlock hblock)).mp (hexact.blocks operand block hblock)
  · rintro ⟨htile, hroom⟩
    refine ⟨htile, rfl, rfl, (slot_fields hfits hplan .lhs output step).1, fun operand block hblock => ?_⟩
    apply (blockExact_iff hfits hplan (hwritten.fetchBlock hblock)).mpr
    exact hroom operand (Option.isSome_iff_exists.mpr ⟨block, hblock⟩)

end Instructions

namespace ScheduleWritten

variable {schedule : Schedule} {start last : Residency} {repeats : Nat} {steps : List Step}
  {results : List (Instruction ResultCommand)}

/-- The position of a step of an output tile has its instructions. -/
theorem exists_step (h : layout.ScheduleWritten schedule start last repeats steps results)
    (houtput : output < layout.nest.outputCount) (hstep : step < layout.nest.stepCount) :
    ∃ blocks, schedule.execute[output * layout.nest.stepCount + step]? =
      some (layout.stepWith repeats output step blocks).execute := by
  have hposition : output * layout.nest.stepCount + step < steps.length := by
    rw [h.steps_length]
    exact mul_add_lt_mul houtput hstep
  obtain ⟨blocks, hwith⟩ := h.step_getElem? (List.getElem?_eq_getElem hposition)
  obtain ⟨hdiv, hmod⟩ := div_mod_of_lt output hstep
  rw [hdiv, hmod] at hwith
  refine ⟨blocks, ?_⟩
  rw [h.execute, List.getElem?_map, List.getElem?_eq_getElem hposition, hwith]
  rfl

variable (hfits : layout.geometry.Fits) (hplan : TilePlan.ofGemm layout.geometry layout.gemm = .ok layout.plan)
include hfits hplan

/-- The execute instruction of a step that is exact has room for its tile index and its pairs of bands. -/
theorem step_exact (h : layout.ScheduleWritten schedule start last (Word32.low layout.bandPairs) steps results)
    (hexact : layout.ScheduleExact schedule) (houtput : output < layout.nest.outputCount)
    (hstep : step < layout.nest.stepCount) :
    layout.tileIndex output step = layout.tileAt output step ∧ Word32.low layout.bandPairs = layout.bandPairs := by
  obtain ⟨blocks, hat⟩ := h.exists_step houtput hstep
  have hexecute := hexact.execute _ _ hat
  obtain ⟨hdiv, hmod⟩ := div_mod_of_lt output hstep
  rw [hdiv, hmod] at hexecute
  exact (executeExact_iff hfits hplan hstep _ blocks).mp hexecute

/-- The last tile of an operand is needed by some step, whose index names it. -/
theorem tiles_le (h : layout.ScheduleWritten schedule start last (Word32.low layout.bandPairs) steps results)
    (hexact : layout.ScheduleExact schedule) (operand : Operand) :
    (layout.plan.operand operand).rowTiles ≤ Word32.size ∧ layout.plan.commonTiles ≤ Word32.size := by
  have hcuts := TilePlan.ofGemm_cuts hplan
  have htile : layout.HasTile operand ⟨0, (layout.plan.operand operand).rowTiles - 1, layout.plan.commonTiles - 1⟩ :=
    ⟨(hcuts.shape operand).bits_pos, Nat.sub_one_lt (Nat.ne_of_gt (hcuts.rowTiles_pos operand)),
      Nat.sub_one_lt (Nat.ne_of_gt hcuts.commonTiles_pos)⟩
  obtain ⟨output, houtput, step, hstep, hneeded⟩ := htile.needed hcuts
  obtain ⟨hrowTile, hcommon⟩ := tileIndex_eq_iff.mp (h.step_exact hfits hplan hexact houtput hstep).1 operand
  rw [hneeded] at hrowTile hcommon
  dsimp only at hrowTile hcommon
  omega

/-- An exact schedule says how many tiles there are, and how large they are. -/
theorem narrow_of_exact (h : layout.ScheduleWritten schedule start last (Word32.low layout.bandPairs) steps results)
    (hexact : layout.ScheduleExact schedule) : layout.Narrow schedule := by
  have hcuts := TilePlan.ofGemm_cuts hplan
  have houtputs : 0 < layout.nest.outputCount := hcuts.outputCount_pos
  constructor
  case bandPairs => exact Word32.low_eq_self_iff.mp (h.step_exact hfits hplan hexact houtputs hcuts.stepCount_pos).2
  case tileRows =>
    have hfirst : 0 < schedule.result.length := h.result_length ▸ houtputs
    have hat := List.getElem?_eq_getElem hfirst
    obtain ⟨_, hcommand, -⟩ := h.result_eq hat
    have hresult := hexact.result 0 _ hat
    have hlhs := hresult.lhsRows
    have hrhs := hresult.rhsRows
    rw [hcommand] at hlhs hrhs
    rintro (_ | _)
    · exact Word32.low_eq_self_iff.mp hlhs
    · exact Word32.low_eq_self_iff.mp hrhs
  case rowTiles => exact fun operand => (h.tiles_le hfits hplan hexact operand).1
  case commonTiles => exact (h.tiles_le hfits hplan hexact .lhs).2
  case rowBytes =>
    rintro operand ⟨instruction, hinstruction, hsome⟩
    obtain ⟨position, hat⟩ := List.getElem?_of_mem hinstruction
    have hfetch := hexact.fetch position instruction hat
    obtain ⟨-, addresses, blocks, _, _, _, _, hwritten, rfl, -⟩ := h.fetch_eq hat
    exact (((fetchExact_iff hfits hplan hwritten).mp hfetch).2 operand hsome).1

omit hfits hplan in
/-- A result instruction is exact if the tiles of both operands can be named and measured. -/
theorem result_exact (h : layout.ScheduleWritten schedule start last (Word32.low layout.bandPairs) steps results)
    (hnarrow : layout.Narrow schedule) {instruction : Instruction ResultCommand}
    (hat : schedule.result[output]? = some instruction) : layout.ResultExact output instruction := by
  obtain ⟨_, hcommand, htoken⟩ := h.result_eq hat
  have houtput : output < layout.nest.outputCount := by
    rw [← h.result_length]
    exact (List.getElem?_eq_some_iff.mp hat).1
  obtain ⟨hlhsTile, hrhsTile⟩ := LoopNest.rowTile_lt houtput
  have hlhs : Word32.low (layout.nest.lhsTile output) = layout.nest.lhsTile output :=
    Word32.low_eq_self (Nat.lt_of_lt_of_le hlhsTile (hnarrow.rowTiles .lhs))
  have hrhs : Word32.low (layout.nest.rhsTile output) = layout.nest.rhsTile output :=
    Word32.low_eq_self (Nat.lt_of_lt_of_le hrhsTile (hnarrow.rowTiles .rhs))
  constructor
  case tile => rw [htoken, hlhs, hrhs]
  case repeats =>
    rw [htoken]
    exact Word32.low_eq_self hnarrow.bandPairs
  case slot => rw [hcommand]
  case lhsRows =>
    rw [hcommand]
    exact Word32.low_eq_self (hnarrow.tileRows .lhs)
  case rhsRows =>
    rw [hcommand]
    exact Word32.low_eq_self (hnarrow.tileRows .rhs)

/-- A schedule whose numbers have room is exact, instruction by instruction. -/
theorem exact_of_narrow (h : layout.ScheduleWritten schedule start last (Word32.low layout.bandPairs) steps results)
    (hnarrow : layout.Narrow schedule) : layout.ScheduleExact schedule := by
  constructor
  case fetch =>
    intro position instruction hat
    have hmem := List.mem_of_getElem? hat
    obtain ⟨hposition, addresses, blocks, _, _, _, _, hwritten, rfl, -⟩ := h.fetch_eq hat
    obtain ⟨houtput, hstep⟩ := h.position_lt hposition
    refine (fetchExact_iff hfits hplan hwritten).mpr ⟨tileIndex_eq_of_narrow hnarrow houtput hstep, ?_⟩
    exact fun operand hsome => ⟨hnarrow.rowBytes operand ⟨_, hmem, hsome⟩, hnarrow.tileRows operand⟩
  case execute =>
    intro position instruction hat
    obtain ⟨hposition, blocks, rfl⟩ := h.execute_eq hat
    obtain ⟨houtput, hstep⟩ := h.position_lt hposition
    exact (executeExact_iff hfits hplan hstep _ blocks).mpr
      ⟨tileIndex_eq_of_narrow hnarrow houtput hstep, Word32.low_eq_self hnarrow.bandPairs⟩
  case result => exact fun output instruction hat => h.result_exact hnarrow hat

end ScheduleWritten

/-- Operands and results that have room in a field leave room for everything else. -/
theorem narrow_of_small (hplan : TilePlan.ofGemm layout.geometry layout.gemm = .ok layout.plan)
    (hsmall : ∀ operand, (layout.gemm.operand operand).exactBytes < Word32.size) {bytes : Nat}
    (hbytes : layout.gemm.resultBytes = .ok bytes) (hresult : bytes < Word32.size) (schedule : Schedule) :
    layout.Narrow schedule := by
  have hcuts := TilePlan.ofGemm_cuts hplan
  have hrows (operand : Operand) : (layout.gemm.operand operand).paddedRows < Word32.size :=
    Nat.lt_of_le_of_lt (hcuts.paddedRows_le_resultBytes hbytes operand) hresult
  have hrowBytes (operand : Operand) : (layout.gemm.operand operand).rowBytes < Word32.size := by
    have hplane := (hcuts.shape operand).plane_le
    have hrow : (layout.gemm.operand operand).rowBytes ≤
        (layout.gemm.operand operand).paddedRows * (layout.gemm.operand operand).rowBytes :=
      Nat.le_mul_of_pos_left _ (hcuts.shape operand).paddedRows_pos
    have := hsmall operand
    omega
  constructor
  case bandPairs => exact Nat.lt_of_le_of_lt (hcuts.bandPairs_le (TilePlan.ofGemm_bands hplan) hbytes) hresult
  case tileRows => exact fun operand => Nat.lt_of_le_of_lt (hcuts.tileRows_le operand) (hrows operand)
  case rowTiles => exact fun operand => Nat.le_of_lt (Nat.lt_of_le_of_lt (hcuts.rowTiles_le operand) (hrows operand))
  case commonTiles =>
    apply Nat.le_of_lt
    calc layout.plan.commonTiles
        ≤ layout.plan.commonTiles * (layout.plan.operand .lhs).segment :=
          Nat.le_mul_of_pos_right _ (hcuts.segment_pos .lhs)
      _ = (layout.gemm.operand .lhs).rowBytes := hcuts.commonTiles_mul_segment .lhs
      _ < Word32.size := hrowBytes .lhs
  case rowBytes => exact fun operand _ => hrowBytes operand

end Layout

/-- A schedule is exact if and only if the numbers that no check bounds have room in its fields, and they do if the
operands and the result have fewer bytes than a field can count. -/
theorem schedule_exact_iff {layout : Layout} (hfits : layout.geometry.Fits)
    (hplan : TilePlan.ofGemm layout.geometry layout.gemm = .ok layout.plan) {start last : Residency}
    {schedule : Schedule} (hschedule : layout.schedule start = .ok (schedule, last)) :
    (layout.ScheduleExact schedule ↔ layout.Narrow schedule) ∧
      ((∀ operand, (layout.gemm.operand operand).exactBytes < Word32.size) →
        ∀ bytes, layout.gemm.resultBytes = .ok bytes → bytes < Word32.size → layout.ScheduleExact schedule) := by
  obtain ⟨-, bandPairs, steps, results, hbandPairs, hwritten⟩ := Layout.schedule_written_for hschedule
  obtain ⟨-, rfl⟩ := Word64.mul_eq_ok_iff.mp hbandPairs
  refine ⟨⟨hwritten.narrow_of_exact hfits hplan, hwritten.exact_of_narrow hfits hplan⟩, fun hsmall bytes hbytes hresult => ?_⟩
  exact hwritten.exact_of_narrow hfits hplan (Layout.narrow_of_small hplan hsmall hbytes hresult schedule)

/-- The operands of the tiled product are 1024 and 768 bytes, and its result is 96. -/
theorem schedule_exact_iff_tiled :
    ∃ schedule last, tiledLayout.schedule .fresh = .ok (schedule, last) ∧ tiledLayout.gemm.resultBytes = .ok 96 ∧
      tiledLayout.ScheduleExact schedule ∧ tiledLayout.Narrow schedule := by
  have hfits : tiledLayout.geometry.Fits := by constructor <;> decide
  have hsmall (operand : Operand) : (tiledLayout.gemm.operand operand).exactBytes < Word32.size := by
    cases operand <;> decide
  have hbytes : tiledLayout.gemm.resultBytes = .ok 96 := toOption_eq_some_iff.mp (by decide +kernel)
  have hwrites : (tiledLayout.schedule .fresh).toOption.isSome := by decide +kernel
  obtain ⟨⟨schedule, last⟩, hschedule⟩ := Option.isSome_iff_exists.mp hwrites
  have hschedule := toOption_eq_some_iff.mp hschedule
  obtain ⟨hiff, hexact⟩ := schedule_exact_iff hfits tiledLayout_plan hschedule
  have hexact := hexact hsmall 96 hbytes (by decide)
  exact ⟨schedule, last, hschedule, hbytes, hexact, hiff.mp hexact⟩

/-- A product of two operands of 65536 rows on an array of one row and one column. All rows of an operand are one tile,
and its bands just fill a slot. -/
def tallLayout : Layout where
  geometry := { Geometry.reference with commonDim := 64, lhsDim := 1, rhsDim := 1, lhsEntries := 131072,
                                        rhsEntries := 131072 }
  gemm := ⟨⟨65536, 65536, 64, 64, 1, false⟩, ⟨65536, 65536, 64, 64, 1, false⟩⟩
  plan := {
    lhs := ⟨1, 8, 65536, 1, 8, 65536, 524288, 65536, 1, 1, .software⟩
    rhs := ⟨1, 8, 65536, 1, 8, 65536, 524288, 65536, 1, 1, .software⟩
    stripes := 1
    bandStripes := 1
    commonTiles := 1 }
  addresses := ⟨0, 0, 0⟩

/-- The tall product has a schedule, and its tokens ask for no pair of bands although its tiles have 2^32 of them. -/
theorem tall_schedule_truncated :
    tallLayout.geometry.Fits ∧ TilePlan.ofGemm tallLayout.geometry tallLayout.gemm = .ok tallLayout.plan ∧
      tallLayout.bandPairs = 0x100000000 ∧
      ∃ schedule last, tallLayout.schedule .fresh = .ok (schedule, last) ∧
        schedule.execute.map (·.token.repeats) = [0] ∧ schedule.result.map (·.token.repeats) = [0] ∧
        ¬ tallLayout.ScheduleExact schedule := by
  have hrepeats : (tallLayout.schedule .fresh).toOption.map (fun (written : Schedule × Residency) =>
      (written.1.execute.map (·.token.repeats), written.1.result.map (·.token.repeats))) = some ([0], [0]) := by
    decide +kernel
  obtain ⟨⟨schedule, last⟩, hschedule, hrepeats⟩ := Option.map_eq_some_iff.mp hrepeats
  obtain ⟨hexecute, hresult⟩ := Prod.mk.injEq .. ▸ hrepeats
  refine ⟨by constructor <;> decide, toOption_eq_some_iff.mp (by decide +kernel), by decide, schedule, last,
    toOption_eq_some_iff.mp hschedule, hexecute, hresult, fun hexact => ?_⟩
  obtain ⟨instruction, hinstruction, hzero⟩ := List.map_eq_singleton_iff.mp hresult
  have hpairs := (hexact.result 0 instruction (by rw [hinstruction]; rfl)).repeats
  rw [hzero] at hpairs
  exact absurd hpairs (by decide)

end BitSerial
