import Mathlib.Data.Set.Pairwise.Lattice
import Mathlib.Order.CompletePartialOrder
import Mathlib.Order.Interval.Set.Defs
import BitSerial.Proofs.OnChip
import BitSerial.Proofs.Placement

/-! # Tiles partition an operand

The rows of the tiles of an operand are pairwise disjoint, and together they are its buffer. A tile is therefore known
by its address. A schedule that begins with nothing on chip transfers every tile at least once, so its fetches read the
whole operand and nothing else.
-/

namespace BitSerial

/-- The bytes that a transfer reads. -/
def FetchBlock.range (block : FetchBlock) : Set Nat :=
  ⋃ row ∈ Set.Iio block.blockCount,
    Set.Ico (block.address + row * block.strideBytes) (block.address + row * block.strideBytes + block.blockBytes)

/-- The bytes that the fetches of a schedule read for an operand. -/
def Schedule.fetchedRange (schedule : Schedule) (operand : Operand) : Set Nat :=
  {byte | ∃ instruction ∈ schedule.fetch, ∃ block, instruction.command.blocks.get operand = some block ∧
    byte ∈ block.range}

/-- What an entry of a slot comes from: it was there, or a fetch brought it. -/
theorem OnChip.worked_eq_some {content : Operand → List UInt8} {operand : Operand} {slot : Nat}
    {entry : Nat × List UInt8} {operations : List Operation} {chip : OnChip}
    (h : operations.foldl (·.worked content) chip operand slot = some entry) :
    chip operand slot = some entry ∨
      ∃ operation ∈ operations, ∃ command block, operation.command = .fetch command ∧
        command.blocks.get operand = some block ∧ block.address = entry.1 := by
  induction operations generalizing chip with
  | nil => exact .inl h
  | cons first rest ih =>
    rcases ih h with hfirst | ⟨operation, hoperation, hbrought⟩
    · cases hcommand : first.command with
      | fetch command =>
        simp only [worked, hcommand, fetched] at hfirst
        split at hfirst
        next block hblock =>
          split at hfirst
          · refine .inr ⟨first, List.mem_cons_self, command, block, hcommand, hblock, ?_⟩
            exact congrArg Prod.fst (Option.some.inj hfirst)
          · exact .inl hfirst
        next => exact .inl hfirst
      | execute command =>
        simp only [worked, hcommand] at hfirst
        exact .inl hfirst
      | result command =>
        simp only [worked, hcommand] at hfirst
        exact .inl hfirst
    · exact .inr ⟨operation, List.mem_cons_of_mem _ hoperation, hbrought⟩

namespace Layout

variable {layout : Layout} {operand : Operand}

/-- The bytes of a row of a tile. -/
def rowRange (layout : Layout) (operand : Operand) (row : TileRow) : Set Nat :=
  {byte | ∃ address segment, layout.tileAddress operand row.plane row.rowTile row.common = .ok address ∧
    (layout.plan.operand operand).segmentBytes = .ok segment ∧
    byte ∈ Set.Ico (address + row.row * (layout.gemm.operand operand).rowBytes)
      (address + row.row * (layout.gemm.operand operand).rowBytes + segment)}

/-- How the tiles of an operand lie in a buffer of a number of bytes. -/
structure Partitioned (layout : Layout) (operand : Operand) (bytes : Nat) : Prop where
  /-- Every tile has an address, and the address is an identity. -/
  identified : ∀ tile, layout.HasTile operand tile → ∃ address,
    layout.tileAddress operand tile.plane tile.rowTile tile.common = .ok address ∧
      TileIdentity.ofAddress address = some address
  /-- No two tiles have the same address. -/
  distinct : ∀ first second address, layout.HasTile operand first → layout.HasTile operand second →
    layout.tileAddress operand first.plane first.rowTile first.common = .ok address →
    layout.tileAddress operand second.plane second.rowTile second.common = .ok address → first = second
  disjoint : {row | layout.HasRow operand row}.PairwiseDisjoint (layout.rowRange operand)
  cover : ⋃ row ∈ {row | layout.HasRow operand row}, layout.rowRange operand row =
    Set.Ico (layout.addresses.operand operand) (layout.addresses.operand operand + bytes)
  /-- The fetches of a schedule that begins with nothing on chip read the whole buffer and nothing else. -/
  fetched : ∀ start schedule last, start.tiles = .both (.both none) → layout.schedule start = .ok (schedule, last) →
    schedule.fetchedRange operand =
      Set.Ico (layout.addresses.operand operand) (layout.addresses.operand operand + bytes)

section Rows

/-- A byte is in the row that its digits say. -/
theorem mem_Ico_rowAt (hcuts : layout.plan.Cuts layout.geometry layout.gemm) (offset : Nat) :
    layout.addresses.operand operand + offset ∈
      Set.Ico (layout.addresses.operand operand + layout.rowOffset operand (layout.rowAt operand offset))
        (layout.addresses.operand operand + layout.rowOffset operand (layout.rowAt operand offset) +
          (layout.plan.operand operand).segment) := by
  have hwithin := layout.rowOffset_rowAt operand offset
  have hlt := Nat.mod_lt (offset % (layout.gemm.operand operand).rowBytes) (hcuts.segment_pos operand)
  rw [Set.mem_Ico]
  omega

variable {bytes : Nat} {row : TileRow} (hcuts : layout.plan.Cuts layout.geometry layout.gemm)
  (hbytes : (layout.gemm.operand operand).bytes = .ok bytes)
  (hroom : layout.addresses.operand operand + bytes < Word64.size)
include hcuts hbytes hroom

theorem rowRange_eq (hrow : layout.HasRow operand row) :
    layout.rowRange operand row =
      Set.Ico (layout.addresses.operand operand + layout.rowOffset operand row)
        (layout.addresses.operand operand + layout.rowOffset operand row +
          (layout.plan.operand operand).segment) := by
  rw [rowOffset_eq, ← Nat.add_assoc]
  ext byte
  constructor
  · rintro ⟨address, segment, haddress, hsegment, hbyte⟩
    rw [hrow.toHasTile.address hcuts hbytes hroom] at haddress
    rw [hcuts.segmentBytes_eq] at hsegment
    cases haddress
    cases hsegment
    exact hbyte
  · intro hbyte
    exact ⟨_, _, hrow.toHasTile.address hcuts hbytes hroom, hcuts.segmentBytes_eq operand, hbyte⟩

theorem rowRange_disjoint :
    {row | layout.HasRow operand row}.PairwiseDisjoint (layout.rowRange operand) := by
  intro first hfirst second hsecond hne
  apply Set.disjoint_left.mpr
  intro byte hbyteFirst hbyteSecond
  apply hne
  rw [rowRange_eq hcuts hbytes hroom hfirst] at hbyteFirst
  rw [rowRange_eq hcuts hbytes hroom hsecond] at hbyteSecond
  obtain ⟨position, rfl⟩ := Nat.exists_eq_add_of_le hbyteFirst.1
  obtain ⟨other, hother⟩ := Nat.exists_eq_add_of_le hbyteSecond.1
  have hposition := Nat.lt_of_add_lt_add_left hbyteFirst.2
  have hotherLt : other < (layout.plan.operand operand).segment := by
    have := hbyteSecond.2
    omega
  -- both rows are what the digits of the byte say
  calc first = layout.rowAt operand (layout.rowOffset operand first + position) :=
        (HasRow.rowAt_eq hfirst hcuts hposition).symm
    _ = layout.rowAt operand (layout.rowOffset operand second + other) := by
        congr 1
        omega
    _ = second := HasRow.rowAt_eq hsecond hcuts hotherLt

theorem iUnion_rowRange :
    ⋃ row ∈ {row | layout.HasRow operand row}, layout.rowRange operand row =
      Set.Ico (layout.addresses.operand operand) (layout.addresses.operand operand + bytes) := by
  ext byte
  simp only [Set.mem_iUnion, Set.mem_ofPred_eq, exists_prop]
  constructor
  · rintro ⟨row, hrow, hbyte⟩
    rw [rowRange_eq hcuts hbytes hroom hrow, Set.mem_Ico] at hbyte
    have hend := hrow.end_le hcuts hbytes
    rw [Set.mem_Ico]
    omega
  · rintro ⟨hfrom, hto⟩
    obtain ⟨offset, rfl⟩ := Nat.exists_eq_add_of_le hfrom
    have hrow := hasRow_rowAt hcuts hbytes (Nat.lt_of_add_lt_add_left hto)
    refine ⟨_, hrow, ?_⟩
    rw [rowRange_eq hcuts hbytes hroom hrow]
    exact mem_Ico_rowAt hcuts offset

end Rows

section Fetches

variable {output step bytes slot address : Nat} {start middle last residency after : Residency}

theorem transfer?_eq_some {block : FetchBlock}
    (h : layout.transfer? operand slot address residency = .ok (some block, after)) :
    layout.fetchBlock operand slot address = .ok block := by
  simp only [transfer?, bind_eq_ok_iff, Prod.exists] at h
  obtain ⟨hit, next, _, h⟩ := h
  split at h
  · cases h
  · simp only [bind_eq_ok_iff, pure_eq_ok_iff, Prod.mk.injEq] at h
    obtain ⟨found, hfound, hblock, _⟩ := h
    rw [Option.some.inj hblock]
    exact hfound

theorem StepWritten.fetchBlock {addresses : PerOperand Nat} {blocks : PerOperand (Option FetchBlock)}
    (h : layout.StepWritten output step addresses blocks start middle last bytes) {block : FetchBlock}
    (hblock : blocks.get operand = some block) :
    layout.fetchBlock operand (layout.stepSlot output step) (addresses.get operand) = .ok block := by
  cases operand with
  | lhs =>
    have hlhs := h.lhs
    change blocks.lhs = some block at hblock
    rw [hblock] at hlhs
    exact transfer?_eq_some hlhs
  | rhs =>
    have hrhs := h.rhs
    change blocks.rhs = some block at hblock
    rw [hblock] at hrhs
    exact transfer?_eq_some hrhs

/-- The commands of an operand have room for what describes its tiles, if the operand is small enough. -/
theorem fits_commands (hcuts : layout.plan.Cuts layout.geometry layout.gemm)
    (hbytes : (layout.gemm.operand operand).bytes = .ok bytes) (hsmall : bytes < Word32.size) :
    (layout.plan.operand operand).segment < Word32.size ∧ (layout.gemm.operand operand).rowBytes < Word32.size ∧
      (layout.plan.operand operand).tileRows < Word32.size := by
  have hshape := hcuts.shape operand
  have hsize := hshape.bytes_eq hbytes
  have hrows : (layout.gemm.operand operand).paddedRows ≤ bytes := by
    rw [hsize, Nat.mul_right_comm]
    exact Nat.le_mul_of_pos_left _ (Nat.mul_pos hshape.bits_pos hshape.rowBytes_pos)
  have hrowBytes : (layout.gemm.operand operand).rowBytes ≤ bytes := by
    rw [hsize]
    exact Nat.le_mul_of_pos_left _ (Nat.mul_pos hshape.bits_pos hshape.paddedRows_pos)
  have htileRows := hcuts.tileRows_le operand
  have hsegment := hcuts.segment_le operand
  omega

/-- The fields of a transfer. -/
theorem eq_of_fetchBlock (hcuts : layout.plan.Cuts layout.geometry layout.gemm) {block : FetchBlock}
    (hblock : layout.fetchBlock operand slot address = .ok block) :
    block = {
      address
      blockBytes := Word32.low (layout.plan.operand operand).segment
      strideBytes := Word32.low (layout.gemm.operand operand).rowBytes
      blockCount := Word32.low (layout.plan.operand operand).tileRows
      firstWord := Word32.low (slot * (layout.plan.operand operand).slotStripes)
      firstMemory := layout.firstMemory operand
      memoryCount := Word32.low (layout.plan.operand operand).dim } := by
  simp only [fetchBlock, hcuts.segmentBytes_eq, bind_eq_ok_iff, pure_eq_ok_iff, Except.ok.injEq,
    exists_eq_left'] at hblock
  exact hblock

/-- The transfer of a tile, if the operand is small enough for its commands. -/
theorem fetchBlock_eq (hcuts : layout.plan.Cuts layout.geometry layout.gemm)
    (hbytes : (layout.gemm.operand operand).bytes = .ok bytes) (hsmall : bytes < Word32.size) {block : FetchBlock}
    (hblock : layout.fetchBlock operand slot address = .ok block) :
    block.address = address ∧ block.blockBytes = (layout.plan.operand operand).segment ∧
      block.strideBytes = (layout.gemm.operand operand).rowBytes ∧
      block.blockCount = (layout.plan.operand operand).tileRows := by
  obtain ⟨hsegment, hrowBytes, htileRows⟩ := fits_commands hcuts hbytes hsmall
  rw [eq_of_fetchBlock hcuts hblock]
  exact ⟨rfl, Word32.low_eq_self hsegment, Word32.low_eq_self hrowBytes, Word32.low_eq_self htileRows⟩

/-- A transfer of an operand that is small enough for its commands reads the rows of a tile. -/
theorem mem_range_fetchBlock (hcuts : layout.plan.Cuts layout.geometry layout.gemm)
    (hbytes : (layout.gemm.operand operand).bytes = .ok bytes) (hsmall : bytes < Word32.size) {block : FetchBlock}
    (hblock : layout.fetchBlock operand slot address = .ok block) {byte : Nat} :
    byte ∈ block.range ↔ ∃ row < (layout.plan.operand operand).tileRows,
      byte ∈ Set.Ico (address + row * (layout.gemm.operand operand).rowBytes)
        (address + row * (layout.gemm.operand operand).rowBytes + (layout.plan.operand operand).segment) := by
  obtain ⟨haddress, hblockBytes, hstride, hcount⟩ := fetchBlock_eq hcuts hbytes hsmall hblock
  rw [FetchBlock.range, haddress, hblockBytes, hstride, hcount]
  simp only [Set.mem_iUnion, Set.mem_Iio, exists_prop]

theorem fetchBlock_address {block : FetchBlock} (hblock : layout.fetchBlock operand slot address = .ok block) :
    block.address = address := by
  simp only [fetchBlock, bind_eq_ok_iff, pure_eq_ok_iff] at hblock
  obtain ⟨_, _, rfl⟩ := hblock
  rfl

end Fetches

namespace ScheduleWritten

variable {schedule : Schedule} {start last : Residency} {bandPairs bytes : Nat} {steps : List Step}
  {results : List (Instruction ResultCommand)}

/-- A position of the whole nest is a step of an output tile. -/
theorem position_lt (h : layout.ScheduleWritten schedule start last bandPairs steps results) {position : Nat}
    (hposition : position < steps.length) :
    position / layout.nest.stepCount < layout.nest.outputCount ∧
      position % layout.nest.stepCount < layout.nest.stepCount := by
  rw [h.steps_length] at hposition
  exact ⟨Nat.div_lt_of_lt_mul (Nat.mul_comm _ _ ▸ hposition),
    Nat.mod_lt _ (Nat.pos_of_mul_pos_left (Nat.zero_lt_of_lt hposition))⟩

/-- A transfer of a schedule is that of a tile that the operand has. -/
theorem tile_of_block (h : layout.ScheduleWritten schedule start last bandPairs steps results)
    (hcuts : layout.plan.Cuts layout.geometry layout.gemm) {instruction : Instruction FetchCommand}
    (hinstruction : instruction ∈ schedule.fetch) {block : FetchBlock}
    (hblock : instruction.command.blocks.get operand = some block) :
    ∃ tile slot, layout.HasTile operand tile ∧
      layout.fetchBlock operand slot (layout.addresses.operand operand + layout.tileOffset operand tile) =
        .ok block := by
  obtain ⟨position, hat⟩ := List.getElem?_of_mem hinstruction
  obtain ⟨hposition, addresses, blocks, _, _, _, _, hwritten, rfl, -⟩ := h.fetch_eq hat
  obtain ⟨houtput, hstep⟩ := h.position_lt hposition
  refine ⟨layout.neededTile operand (position / layout.nest.stepCount) (position % layout.nest.stepCount),
    layout.stepSlot (position / layout.nest.stepCount) (position % layout.nest.stepCount),
    hasTile_needed houtput hstep, ?_⟩
  rw [← neededAddress_eq hcuts (hwritten.address operand)]
  exact hwritten.fetchBlock hblock

/-- Nothing on chip is taken for granted: what a step needs was transferred for it or for a step before it. -/
theorem exists_block (h : layout.ScheduleWritten schedule start last bandPairs steps results)
    (operand : Operand) (hinvalid : start.tiles = .both (.both none)) {position : Nat}
    (hposition : position < steps.length) :
    ∃ address, layout.neededAddress operand (position / layout.nest.stepCount) (position % layout.nest.stepCount) =
        .ok address ∧
      ∃ instruction ∈ schedule.fetch, ∃ block, instruction.command.blocks.get operand = some block ∧
        block.address = address := by
  have hknown (operand : Operand) (slot : Nat) : start.known operand slot = none := by
    simp [Residency.known, hinvalid, SlotPair.value, SlotPair.both]
  have htruthful : start.Truthful .unknown fun _ => [] := Residency.Truthful.of_unknown hknown
  obtain ⟨address, haddress, hchip⟩ := (h.fetched htruthful).2 (position + 1) position (Nat.lt_succ_self _)
    (Nat.add_le_add_left (by decide) _) hposition operand
  rcases OnChip.worked_eq_some hchip with hunknown | ⟨operation, hoperation, command, block, hcommand, hblock, heq⟩
  · cases hunknown
  · obtain ⟨instruction, hinstruction, rfl⟩ := List.mem_map.mp (List.mem_of_mem_take hoperation)
    cases hcommand
    exact ⟨address, haddress, instruction, hinstruction, block, hblock, heq⟩

/-- Every tile of an operand is transferred by some step, if nothing on chip is taken for granted. -/
theorem exists_block_of_tile (h : layout.ScheduleWritten schedule start last bandPairs steps results)
    (hcuts : layout.plan.Cuts layout.geometry layout.gemm) (hinvalid : start.tiles = .both (.both none))
    {tile : TilePlace} (htile : layout.HasTile operand tile) :
    ∃ instruction ∈ schedule.fetch, ∃ block, instruction.command.blocks.get operand = some block ∧
      block.address = layout.addresses.operand operand + layout.tileOffset operand tile := by
  obtain ⟨output, houtput, step, hstep, rfl⟩ := htile.needed hcuts
  have hposition : output * layout.nest.stepCount + step < steps.length := by
    rw [h.steps_length]
    exact mul_add_lt_mul houtput hstep
  obtain ⟨address, haddress, instruction, hinstruction, block, hblock, hbegin⟩ :=
    h.exists_block operand hinvalid hposition
  obtain ⟨hdiv, hmod⟩ := div_mod_of_lt output hstep
  rw [hdiv, hmod] at haddress
  exact ⟨instruction, hinstruction, block, hblock, hbegin.trans (neededAddress_eq hcuts haddress)⟩

theorem fetchedRange_eq (h : layout.ScheduleWritten schedule start last bandPairs steps results)
    (hcuts : layout.plan.Cuts layout.geometry layout.gemm)
    (hbytes : (layout.gemm.operand operand).bytes = .ok bytes) (hsmall : bytes < Word32.size)
    (hinvalid : start.tiles = .both (.both none)) :
    schedule.fetchedRange operand =
      Set.Ico (layout.addresses.operand operand) (layout.addresses.operand operand + bytes) := by
  ext byte
  constructor
  · rintro ⟨instruction, hinstruction, block, hblock, hbyte⟩
    obtain ⟨tile, slot, htile, hfetch⟩ := h.tile_of_block hcuts hinstruction hblock
    obtain ⟨row, hrow, hfrom, hto⟩ := (mem_range_fetchBlock hcuts hbytes hsmall hfetch).mp hbyte
    have hend := (⟨htile, hrow⟩ : layout.HasRow operand ⟨tile, row⟩).end_le hcuts hbytes
    rw [rowOffset_eq] at hend
    dsimp only at hend
    rw [Set.mem_Ico]
    omega
  · rintro ⟨hfrom, hto⟩
    obtain ⟨offset, rfl⟩ := Nat.exists_eq_add_of_le hfrom
    have hrow := hasRow_rowAt hcuts hbytes (Nat.lt_of_add_lt_add_left hto)
    obtain ⟨instruction, hinstruction, block, hblock, hbegin⟩ :=
      h.exists_block_of_tile hcuts hinvalid hrow.toHasTile
    -- the transfer may be that of another step, but what it reads depends on its address alone
    obtain ⟨tile, slot, _, hfetch⟩ := h.tile_of_block hcuts hinstruction hblock
    rw [← fetchBlock_address hfetch, hbegin] at hfetch
    refine ⟨instruction, hinstruction, block, hblock, (mem_range_fetchBlock hcuts hbytes hsmall hfetch).mpr
      ⟨(layout.rowAt operand offset).row, hrow.row, ?_⟩⟩
    rw [Nat.add_assoc, ← rowOffset_eq]
    exact mem_Ico_rowAt hcuts offset

end ScheduleWritten

end Layout

/-- Tiles have no byte in common and leave none out, wherever the buffer is, and neither do the fetches of a schedule that
takes nothing for granted. -/
theorem tiles_partition_operand {layout : Layout}
    (hplan : TilePlan.ofGemm layout.geometry layout.gemm = .ok layout.plan) {operand : Operand} {bytes : Nat}
    (hbytes : (layout.gemm.operand operand).bytes = .ok bytes) (hsmall : bytes < Word32.size)
    (hroom : layout.addresses.operand operand + bytes < Word64.size) : layout.Partitioned operand bytes := by
  have hcuts := TilePlan.ofGemm_cuts hplan
  constructor
  case identified =>
    intro tile htile
    refine ⟨_, htile.address hcuts hbytes hroom, ?_⟩
    have hend := (htile.row_zero hcuts).end_le hcuts hbytes
    change layout.tileOffset operand tile + _ ≤ bytes at hend
    have hsegment := hcuts.segment_pos operand
    unfold TileIdentity.ofAddress
    rw [if_neg (by omega)]
  case distinct =>
    intro first second address hfirst hsecond hfirstAddress hsecondAddress
    have hsame := (Layout.tileAddress_eq hcuts hfirstAddress).symm.trans (Layout.tileAddress_eq hcuts hsecondAddress)
    exact hfirst.offset_injective hcuts hsecond (Nat.add_left_cancel hsame)
  case disjoint => exact Layout.rowRange_disjoint hcuts hbytes hroom
  case cover => exact Layout.iUnion_rowRange hcuts hbytes hroom
  case fetched =>
    intro start schedule last hinvalid hschedule
    obtain ⟨bandPairs, steps, results, hwritten⟩ := Layout.schedule_written hschedule
    exact hwritten.fetchedRange_eq hcuts hbytes hsmall hinvalid

/-- The left operand of the tiled product is 1024 bytes in sixteen rows of tiles, and its schedule exists. -/
theorem tiles_partition_operand_tiled :
    (tiledLayout.gemm.operand .lhs).bytes = .ok 1024 ∧
      (∃ schedule last, tiledLayout.schedule .fresh = .ok (schedule, last) ∧
        schedule.fetchedRange .lhs = Set.Ico 0x10000000 0x10000400) ∧
      tiledLayout.Partitioned .lhs 1024 := by
  have hbytes : (tiledLayout.gemm.operand .lhs).bytes = .ok 1024 := toOption_eq_some_iff.mp (by decide +kernel)
  have hpartitioned : tiledLayout.Partitioned .lhs 1024 :=
    tiles_partition_operand tiledLayout_plan hbytes (by decide) (by decide)
  have hwrites : (tiledLayout.schedule .fresh).toOption.isSome := by decide +kernel
  obtain ⟨⟨schedule, last⟩, hschedule⟩ := Option.isSome_iff_exists.mp hwrites
  have hschedule := toOption_eq_some_iff.mp hschedule
  exact ⟨hbytes, ⟨schedule, last, hschedule, hpartitioned.fetched _ _ _ rfl hschedule⟩, hpartitioned⟩

end BitSerial
