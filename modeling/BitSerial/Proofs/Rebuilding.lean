import Mathlib.Algebra.Order.BigOperators.Group.List
import Mathlib.Tactic.Ring
import BitSerial.Proofs.Partition
import BitSerial.Proofs.Replay
import BitSerial.Proofs.Trial

/-! # Building a schedule again and again

A schedule that can be built when nothing is known to be on chip can be built from any tracker, as often as the counts
allow. From the second build on nothing changes any more. If the product takes two steps at most, both of its slots keep
their tiles and nothing is fetched; otherwise the third step needs a tile in the slot of the first one, and it is not
the same pair of tiles.
-/

namespace BitSerial

namespace Layout

variable {layout : Layout} {operand : Operand}

/-- The tiles of both operands say which step needs them. -/
theorem neededTile_injective {output step otherOutput otherStep : Nat}
    (h : ∀ operand, layout.neededTile operand output step = layout.neededTile operand otherOutput otherStep) :
    output = otherOutput ∧ step = otherStep := by
  obtain ⟨hlhsPlane, hlhsTile, hcommon⟩ := TilePlace.mk.inj (h .lhs)
  obtain ⟨hrhsPlane, hrhsTile, _⟩ := TilePlace.mk.inj (h .rhs)
  unfold LoopNest.rowTile at hlhsTile hrhsTile
  unfold LoopNest.lhsTile at hlhsTile
  unfold LoopNest.rhsTile at hrhsTile
  unfold LoopNest.stepIndex StepIndex.plane at hlhsPlane hrhsPlane
  unfold LoopNest.stepIndex at hcommon
  dsimp only at hlhsPlane hrhsPlane hcommon hlhsTile hrhsTile
  have hoverCommon : step / layout.nest.commonTiles = otherStep / layout.nest.commonTiles := by
    rw [← Nat.div_add_mod (step / layout.nest.commonTiles) layout.nest.rhsPlanes, hlhsPlane, hrhsPlane,
      Nat.div_add_mod]
  constructor
  · rw [← Nat.div_add_mod output layout.nest.rhsTiles, hlhsTile, hrhsTile, Nat.div_add_mod]
  · rw [← Nat.div_add_mod step layout.nest.commonTiles, hoverCommon, hcommon, Nat.div_add_mod]

theorem fetchBlock_bytes_pos {bytes slot address : Nat} (hcuts : layout.plan.Cuts layout.geometry layout.gemm)
    (hbytes : (layout.gemm.operand operand).bytes = .ok bytes) (hsmall : bytes < Word32.size) {block : FetchBlock}
    (hblock : layout.fetchBlock operand slot address = .ok block) : 0 < block.bytes := by
  obtain ⟨_, hblockBytes, _, hcount⟩ := fetchBlock_eq hcuts hbytes hsmall hblock
  unfold FetchBlock.bytes
  rw [hblockBytes, hcount]
  exact Nat.mul_pos (hcuts.segment_pos operand) (hcuts.tiling operand).tileRows_pos

/-- A step that fetches no bytes fetches no blocks. -/
theorem StepWritten.blocks_eq_none {output step bytes : Nat} {addresses : PerOperand Nat}
    {blocks : PerOperand (Option FetchBlock)} {start middle last : Residency}
    (h : layout.StepWritten output step addresses blocks start middle last bytes)
    (hcuts : layout.plan.Cuts layout.geometry layout.gemm)
    (hsmall : ∀ operand, ∃ bytes, (layout.gemm.operand operand).bytes = .ok bytes ∧ bytes < Word32.size)
    (hnothing : blocks.lhs.elim 0 FetchBlock.bytes + blocks.rhs.elim 0 FetchBlock.bytes = 0) (operand : Operand) :
    blocks.get operand = none := by
  obtain ⟨hlhs, hrhs⟩ := Nat.add_eq_zero_iff.mp hnothing
  have hzero : (blocks.get operand).elim 0 FetchBlock.bytes = 0 := by
    cases operand with
    | lhs => exact hlhs
    | rhs => exact hrhs
  obtain ⟨bytes, hbytes, hlt⟩ := hsmall operand
  cases hblock : blocks.get operand with
  | none => rfl
  | some block =>
    rw [hblock] at hzero
    exact absurd hzero (Nat.ne_of_gt (fetchBlock_bytes_pos hcuts hbytes hlt (h.fetchBlock hblock)))

namespace ScheduleWritten

variable {schedule : Schedule} {start last : Residency} {bandPairs : Nat} {steps : List Step}
  {results : List (Instruction ResultCommand)}

/-- A tracker that knows in the slot of an earlier step what a step needs knows that both need the same tile. -/
theorem neededTile_of_known (h : layout.ScheduleWritten schedule start last bandPairs steps results)
    (hcuts : layout.plan.Cuts layout.geometry layout.gemm) {first second : Nat} (hfirst : first < second)
    (hsecond : second < steps.length) (hrecent : second ≤ first + operandSlots) {residency : Residency}
    (hremembers : layout.Remembers start second residency) {address : Nat}
    (haddress : layout.neededAddress operand (second / layout.nest.stepCount) (second % layout.nest.stepCount) =
      .ok address)
    (hknown : residency.known operand (first % operandSlots) = some address) :
    layout.neededTile operand (second / layout.nest.stepCount) (second % layout.nest.stepCount) =
      layout.neededTile operand (first / layout.nest.stepCount) (first % layout.nest.stepCount) := by
  obtain ⟨earlier, hearlier, hremembered⟩ := hremembers.recent first hfirst hrecent operand
  rw [hknown] at hremembered
  have hequal := TileIdentity.eq_some_of_ofAddress hremembered.symm
  obtain ⟨houtput, hstep⟩ := h.position_lt hsecond
  obtain ⟨houtputFirst, hstepFirst⟩ := h.position_lt (Nat.lt_trans hfirst hsecond)
  apply (hasTile_needed houtput hstep).offset_injective hcuts (hasTile_needed houtputFirst hstepFirst)
  have hoffset := neededAddress_eq hcuts haddress
  rw [hequal, neededAddress_eq hcuts hearlier] at hoffset
  exact (Nat.add_left_cancel hoffset).symm

/-- The third step needs a tile that is not in its slot. -/
theorem fetches_of_two_lt (h : layout.ScheduleWritten schedule start last bandPairs steps results)
    (hcuts : layout.plan.Cuts layout.geometry layout.gemm)
    (hsmall : ∀ operand, ∃ bytes, (layout.gemm.operand operand).bytes = .ok bytes ∧ bytes < Word32.size)
    (hsteps : 2 < steps.length) : 0 < schedule.traffic.fetchBytes := by
  obtain ⟨before, _, _, hlink, hremembers⟩ := h.trackers
  obtain ⟨addresses, blocks, middle, bytes, hwritten, _, hthird⟩ := hlink 2 hsteps
  apply Nat.pos_of_ne_zero
  intro hnothing
  -- if nothing is fetched, the third step finds its tiles where the first one left its own
  have hzero : (Command.fetch steps[2].fetch.command).bytesRead = 0 := by
    rw [h.fetchBytes_eq, moved, List.sum_eq_zero_iff] at hnothing
    apply hnothing
    rw [Schedule.program, h.fetch, List.map_map, List.map_map]
    exact List.mem_map.mpr ⟨steps[2], List.getElem_mem hsteps, rfl⟩
  rw [hthird] at hzero
  have hsame (operand : Operand) : layout.neededTile operand (2 / layout.nest.stepCount) (2 % layout.nest.stepCount) =
      layout.neededTile operand (0 / layout.nest.stepCount) (0 % layout.nest.stepCount) := by
    apply h.neededTile_of_known hcuts Nat.two_pos hsteps (Nat.le_refl _) (hremembers 2 (Nat.le_of_lt hsteps))
      (hwritten.address operand)
    have hnone := hwritten.blocks_eq_none hcuts hsmall hzero operand
    rcases (hwritten.known operand).2 with ⟨block, hblock, _⟩ | ⟨_, hknown⟩
    · rw [hnone] at hblock
      cases hblock
    · rw [@stepSlot_eq layout 2] at hknown
      exact hknown
  obtain ⟨houtput, hstep⟩ := neededTile_injective hsame
  have hpositions : 2 = 0 := by
    rw [← Nat.div_add_mod 2 layout.nest.stepCount, houtput, hstep, Nat.div_add_mod]
  cases hpositions

/-- A schedule of two steps at most finds both slots as the one before it left them. -/
theorem fetches_nothing {first : Schedule} {begin settled : Residency}
    (hfirst : layout.schedule begin = .ok (first, settled)) (hstart : start.tiles = settled.tiles)
    (h : layout.ScheduleWritten schedule start last bandPairs steps results)
    (haddress : ∀ operand output step address, output < layout.nest.outputCount → step < layout.nest.stepCount →
      layout.neededAddress operand output step = .ok address → address ≠ Word64.size - 1)
    (hsteps : steps.length ≤ operandSlots) : schedule.traffic.fetchBytes = 0 := by
  obtain ⟨_, firstSteps, _, hfirstWritten⟩ := schedule_written hfirst
  obtain ⟨before, hzero, hlast, hlink, hremembers⟩ := h.trackers
  have hlength : firstSteps.length = steps.length := hfirstWritten.steps_length.trans h.steps_length.symm
  have hnothing (count : Nat) (hcount : count ≤ steps.length) : (before count).2 = 0 := by
    induction count with
    | zero => rw [hzero]
    | succ count ih =>
      obtain ⟨addresses, blocks, middle, bytes, hwritten, hadds, _⟩ := hlink count hcount
      obtain ⟨houtput, hstep⟩ := h.position_lt hcount
      have hslot : count < operandSlots := Nat.lt_of_lt_of_le hcount hsteps
      rw [hadds, ih (Nat.le_of_succ_le hcount), Nat.zero_add]
      apply hwritten.nothing_of_known
      · intro operand
        -- the slot was not used by this schedule yet, and by the one before it for the same step
        obtain ⟨address, hneeded, hknown⟩ := hfirstWritten.remembers.recent count (hlength ▸ hcount)
          (hlength ▸ Nat.le_trans hsteps (Nat.le_add_left _ _)) operand
        obtain rfl : address = addresses.get operand :=
          Except.ok.inj (hneeded.symm.trans (hwritten.address operand))
        rw [stepSlot_eq, Nat.mod_eq_of_lt hslot,
          (hremembers count (Nat.le_of_lt hcount)).untouched count hslot (Nat.le_refl _) operand,
          Residency.known_eq_of_tiles hstart, ← hknown, Nat.mod_eq_of_lt hslot]
      · exact fun operand => haddress operand _ _ _ houtput hstep (hwritten.address operand)
  have hall := hnothing steps.length (Nat.le_refl _)
  rwa [hlast] at hall

/-- Whatever a schedule transfers begins at a whole word of memory and moves whole words of a channel. -/
theorem block_aligned (h : layout.ScheduleWritten schedule start last bandPairs steps results)
    {instruction : Instruction FetchCommand} (hinstruction : instruction ∈ schedule.fetch) {block : FetchBlock}
    (hblock : instruction.command.blocks.get operand = some block) :
    block.address % addressAlign = 0 ∧ block.blockBytes % transferAlign = 0 ∧ block.strideBytes % transferAlign = 0 := by
  obtain ⟨position, hat⟩ := List.getElem?_of_mem hinstruction
  obtain ⟨-, addresses, blocks, _, _, _, _, hwritten, rfl, -⟩ := h.fetch_eq hat
  have haligned := hwritten.aligned operand
  change blocks.get operand = some block at hblock
  rw [hblock] at haligned
  simp only [checkTransfer, bind_eq_ok_iff, demandShape_eq_ok_iff] at haligned
  obtain ⟨_, haddress, hbytes⟩ := haligned
  exact ⟨haddress, hbytes⟩

end ScheduleWritten

theorem totalBytes_of_announced {totalBytes : Except Fault Nat} {program found : List (Instruction ResultCommand)}
    (h : announceTotal totalBytes program = .ok found) (hprogram : program ≠ []) : ∃ bytes, totalBytes = .ok bytes := by
  unfold announceTotal at h
  split at h
  next hnone => exact absurd (List.reverse_eq_nil_iff.mp hnone) hprogram
  next =>
    obtain ⟨bytes, hbytes, _⟩ := bind_eq_ok_iff.mp h
    exact ⟨bytes, hbytes⟩

/-- A schedule that was written with nothing on chip shows that every tile has an address that identifies it. -/
theorem follows_of_schedule (hcuts : layout.plan.Cuts layout.geometry layout.gemm) {unknown last : Residency}
    {trial : Schedule} (hunknown : unknown.tiles = .both (.both none))
    (htrial : layout.schedule unknown = .ok (trial, last)) : layout.Follows layout.addresses fun _ => 0 := by
  obtain ⟨bandPairs, steps, results, hwritten⟩ := schedule_written htrial
  constructor
  case aligned => exact fun _ => rfl
  case address =>
    intro operand output step offset houtput hstep hoffset
    change layout.neededAddress operand output step = .ok offset at hoffset
    rw [Nat.zero_add]
    refine ⟨?_, hoffset⟩
    have hposition : output * layout.nest.stepCount + step < steps.length := by
      rw [hwritten.steps_length]
      exact mul_add_lt_mul houtput hstep
    obtain ⟨address, haddress, instruction, hinstruction, block, hblock, hbegin⟩ :=
      hwritten.exists_block operand hunknown hposition
    obtain ⟨hdiv, hmod⟩ := div_mod_of_lt output hstep
    rw [hdiv, hmod, hoffset] at haddress
    have haligned := (hwritten.block_aligned hinstruction hblock).1
    rw [hbegin, ← Except.ok.inj haddress] at haligned
    -- the last address is not that of a whole word
    rintro rfl
    exact absurd haligned (by decide)
  case result =>
    intro output command houtput hcommand haligned
    exact ⟨command.address, hcommand, haligned⟩
  case resultBytes =>
    apply totalBytes_of_announced hwritten.result
    intro hnone
    have hlength := hwritten.results_length
    rw [hnone] at hlength
    exact absurd hlength.symm (Nat.ne_of_gt hcuts.outputCount_pos)

/-- An operand has as many tiles as bytes at most. -/
theorem tiles_le_bytes (hcuts : layout.plan.Cuts layout.geometry layout.gemm) {bytes : Nat}
    (hbytes : (layout.gemm.operand operand).bytes = .ok bytes) :
    (layout.gemm.operand operand).bits * (layout.plan.operand operand).rowTiles * layout.plan.commonTiles ≤ bytes := by
  rw [(hcuts.shape operand).bytes_eq hbytes]
  apply Nat.mul_le_mul
  · rw [← (hcuts.tiling operand).rowTiles]
    exact Nat.mul_le_mul_left _ (Nat.le_mul_of_pos_right _ (hcuts.tiling operand).tileRows_pos)
  · rw [← hcuts.commonTiles_mul_segment operand]
    exact Nat.le_mul_of_pos_right _ (hcuts.segment_pos operand)

/-- The steps of a product that is small enough for its commands can be counted. -/
theorem nest_steps_eq (hcuts : layout.plan.Cuts layout.geometry layout.gemm)
    (hsmall : ∀ operand, ∃ bytes, (layout.gemm.operand operand).bytes = .ok bytes ∧ bytes < Word32.size) :
    layout.nest.steps = .ok (layout.nest.outputCount * layout.nest.stepCount) := by
  obtain ⟨lhsBytes, hlhsBytes, hlhsSmall⟩ := hsmall .lhs
  obtain ⟨rhsBytes, hrhsBytes, hrhsSmall⟩ := hsmall .rhs
  have hlhs : layout.nest.lhsPlanes * layout.nest.lhsTiles * layout.nest.commonTiles ≤ lhsBytes :=
    tiles_le_bytes hcuts hlhsBytes
  have hrhs : layout.nest.rhsPlanes * layout.nest.rhsTiles * layout.nest.commonTiles ≤ rhsBytes :=
    tiles_le_bytes hcuts hrhsBytes
  have hcommon : 0 < layout.nest.commonTiles := hcuts.commonTiles_pos
  have hlhsPlanes : 0 < layout.nest.lhsPlanes := (hcuts.shape .lhs).bits_pos
  have hrhsPlanes : 0 < layout.nest.rhsPlanes := (hcuts.shape .rhs).bits_pos
  have hlhsTiles : 0 < layout.nest.lhsTiles := hcuts.rowTiles_pos .lhs
  have hrhsTiles : 0 < layout.nest.rhsTiles := hcuts.rowTiles_pos .rhs
  have hoverall : layout.nest.outputCount * layout.nest.stepCount < Word64.size := by
    calc layout.nest.outputCount * layout.nest.stepCount
        ≤ layout.nest.outputCount * layout.nest.stepCount * layout.nest.commonTiles :=
          Nat.le_mul_of_pos_right _ hcommon
      _ = (layout.nest.lhsPlanes * layout.nest.lhsTiles * layout.nest.commonTiles) *
            (layout.nest.rhsPlanes * layout.nest.rhsTiles * layout.nest.commonTiles) := by
          unfold LoopNest.outputCount LoopNest.stepCount
          ring
      _ ≤ lhsBytes * rhsBytes := Nat.mul_le_mul hlhs hrhs
      _ < Word32.size * Word32.size := Nat.mul_lt_mul_of_lt_of_lt hlhsSmall hrhsSmall
      _ = Word64.size := rfl
  have hstepCount : layout.nest.stepCount < Word64.size :=
    Nat.lt_of_le_of_lt (Nat.le_mul_of_pos_left _ (Nat.mul_pos hlhsTiles hrhsTiles)) hoverall
  have houtputCount : layout.nest.outputCount < Word64.size :=
    Nat.lt_of_le_of_lt
      (Nat.le_mul_of_pos_right _ (Nat.mul_pos (Nat.mul_pos hlhsPlanes hrhsPlanes) hcommon)) hoverall
  have hplanes : layout.nest.lhsPlanes * layout.nest.rhsPlanes < Word64.size :=
    Nat.lt_of_le_of_lt (Nat.le_mul_of_pos_right _ hcommon) hstepCount
  simp only [LoopNest.steps, LoopNest.outputTiles, LoopNest.stepsPerOutput, bind_eq_ok_iff, Word64.mul_eq_ok_iff]
  exact ⟨_, ⟨houtputCount, rfl⟩, _, ⟨_, ⟨hplanes, rfl⟩, hstepCount, rfl⟩, hoverall, rfl⟩

variable (layout)

/-- Builds a number of schedules, one after the other. -/
def rebuild : Nat → Residency → Except Failure (List Schedule × Residency)
  | 0, residency => .ok ([], residency)
  | count + 1, residency => do
    let (schedule, residency) ← layout.schedule residency
    let (rest, residency) ← rebuild count residency
    return (schedule :: rest, residency)

/-- The tracker can count the tiles of a number of schedules. -/
structure CountsAll (start : Residency) (count : Nat) : Prop where
  hits : start.hits + count * (2 * (layout.nest.outputCount * layout.nest.stepCount)) < Word64.size
  misses : start.misses + count * (2 * (layout.nest.outputCount * layout.nest.stepCount)) < Word64.size

variable {layout}

/-- Every schedule is built, unless the counts are full. -/
theorem Follows.rebuild {addresses : Addresses} {base : Operand → Nat} (hfollows : layout.Follows addresses base)
    {unknown : Residency} (hunknown : unknown.tiles = .both (.both none)) {trial : Schedule × Residency}
    (htrial : { layout with addresses }.schedule unknown = .ok trial) (count : Nat) (start : Residency) :
    Settles (.fault .overflow) (¬ layout.CountsAll start count) (layout.rebuild count start) fun found =>
      found.1.length = count := by
  induction count generalizing start with
  | zero => exact .ok rfl rfl
  | succ count ih =>
    unfold Layout.rebuild
    have hcounts (h : layout.CountsAll start (count + 1)) : layout.Counts start := by
      have hhits := h.hits
      have hmisses := h.misses
      rw [Nat.succ_mul] at hhits hmisses
      exact ⟨by omega, by omega⟩
    apply ((hfollows.schedule start hunknown htrial).imp (mt hcounts) fun _ _ h => h).bind
    rintro ⟨schedule, residency⟩ ⟨hhits, hmisses⟩
    have hrest (h : layout.CountsAll start (count + 1)) : layout.CountsAll residency count := by
      have hmostHits := h.hits
      have hmostMisses := h.misses
      rw [Nat.succ_mul] at hmostHits hmostMisses
      dsimp only at hhits hmisses
      exact ⟨by omega, by omega⟩
    apply ((ih residency).imp (mt hrest) fun _ _ h => h).bind
    rintro ⟨rest, last⟩ hlength
    exact .ok rfl (congrArg Nat.succ hlength)

/-- All schedules from tiles that a schedule left are the same. -/
theorem rebuild_settled {first second : Schedule} {start settled last : Residency}
    (hfirst : layout.schedule start = .ok (first, settled)) (hsecond : layout.schedule settled = .ok (second, last))
    {count : Nat} {again after : Residency} {schedules : List Schedule} (hagain : again.tiles = settled.tiles)
    (h : layout.rebuild count again = .ok (schedules, after)) : ∀ schedule ∈ schedules, schedule = second := by
  induction count generalizing again schedules with
  | zero =>
    cases h
    exact nofun
  | succ count ih =>
    simp only [rebuild, bind_eq_ok_iff, pure_eq_ok_iff, Prod.exists, Prod.mk.injEq] at h
    obtain ⟨schedule, next, hschedule, rest, _, hrest, rfl, rfl⟩ := h
    intro found hfound
    rcases List.mem_cons.mp hfound with rfl | hfound
    · exact (schedule_unique hagain hschedule hsecond).1
    · exact ih (schedule_settled hfirst hagain hschedule) hrest found hfound

end Layout

end BitSerial
