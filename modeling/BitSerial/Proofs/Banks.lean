import BitSerial.Proofs.Acceptance
import BitSerial.Proofs.Partition

/-! # Tiles in the on-chip memories

A transfer puts the rows of a tile into the memories of its operand, one row to a memory and then round again, and each
round goes behind the one before. The tile stays within the words of its slot, because a slot has room for the bands that
a tile stacks. The execute instruction of the same step reads the words that were filled and no others, so whatever the
other slot holds is neither overwritten nor read.
-/

namespace BitSerial

/-- A word of an on-chip memory. -/
structure OnChipWord where
  memory : Nat
  word : Nat
  deriving DecidableEq, Repr

/-- The words that a row of a transfer fills. -/
def FetchBlock.rowWords (block : FetchBlock) (segmentWords row : Nat) : Set OnChipWord :=
  {place | place.memory = block.firstMemory + row % block.memoryCount ∧
    place.word ∈ Set.Ico (block.firstWord + row / block.memoryCount * segmentWords)
      (block.firstWord + row / block.memoryCount * segmentWords + segmentWords)}

namespace FetchBlock

variable {block : FetchBlock} {segmentWords : Nat}

/-- Rows in one memory are in different rounds. -/
theorem rowWords_disjoint {first second : Nat} (h : first ≠ second) :
    Disjoint (block.rowWords segmentWords first) (block.rowWords segmentWords second) := by
  rw [Set.disjoint_left]
  rintro place ⟨hfirstMemory, hfirstFrom, hfirstTo⟩ ⟨hsecondMemory, hsecondFrom, hsecondTo⟩
  have hmod : first % block.memoryCount = second % block.memoryCount :=
    Nat.add_left_cancel (hfirstMemory.symm.trans hsecondMemory)
  obtain ⟨firstRest, hfirst⟩ := Nat.exists_eq_add_of_le hfirstFrom
  obtain ⟨secondRest, hsecond⟩ := Nat.exists_eq_add_of_le hsecondFrom
  have hsame : first / block.memoryCount * segmentWords + firstRest =
      second / block.memoryCount * segmentWords + secondRest := by omega
  have hdiv : first / block.memoryCount = second / block.memoryCount := by
    rw [← (div_mod_of_lt (first / block.memoryCount) (show firstRest < segmentWords by omega)).1, hsame,
      (div_mod_of_lt (second / block.memoryCount) (show secondRest < segmentWords by omega)).1]
  refine h ?_
  rw [← Nat.div_add_mod first block.memoryCount, hdiv, hmod, Nat.div_add_mod]

/-- The rows of whole bands fill a run of words for each band, in every memory. -/
theorem mem_rows_iff {bands : Nat} (hcount : block.blockCount = bands * block.memoryCount)
    (hmemories : 0 < block.memoryCount) {place : OnChipWord} :
    (∃ row < block.blockCount, place ∈ block.rowWords segmentWords row) ↔
      place.memory ∈ Set.Ico block.firstMemory (block.firstMemory + block.memoryCount) ∧
        ∃ band < bands, place.word ∈ Set.Ico (block.firstWord + band * segmentWords)
          (block.firstWord + band * segmentWords + segmentWords) := by
  constructor
  · rintro ⟨row, hrow, hmemory, hword⟩
    refine ⟨?_, row / block.memoryCount, Nat.div_lt_of_lt_mul (by rwa [Nat.mul_comm, ← hcount]), hword⟩
    rw [hmemory]
    exact ⟨Nat.le_add_right _ _, Nat.add_lt_add_left (Nat.mod_lt _ hmemories) _⟩
  · rintro ⟨⟨hfrom, hto⟩, band, hband, hword⟩
    obtain ⟨lane, hlane⟩ := Nat.exists_eq_add_of_le hfrom
    have hlt : lane < block.memoryCount := by omega
    refine ⟨band * block.memoryCount + lane, hcount ▸ mul_add_lt_mul hband hlt, ?_⟩
    unfold rowWords
    rw [Set.mem_ofPred_eq, (div_mod_of_lt band hlt).1, (div_mod_of_lt band hlt).2]
    exact ⟨hlane, hword⟩

end FetchBlock

namespace ExecuteCommand

/-- Where the slot of an operand begins in its memories. -/
def firstWord (command : ExecuteCommand) : Operand → Nat
  | .lhs => command.lhsWord
  | .rhs => command.rhsWord

/-- The bands of the tile of an operand. -/
def bands (command : ExecuteCommand) : Operand → Nat
  | .lhs => command.lhsBands
  | .rhs => command.rhsBands

/-- The words of some memories that are read for an operand: band after band, all stripes of it. -/
def readWords (command : ExecuteCommand) (memories : Set Nat) (operand : Operand) : Set OnChipWord :=
  {place | place.memory ∈ memories ∧ ∃ band < command.bands operand,
    place.word ∈ Set.Ico (command.firstWord operand + band * command.stripes)
      (command.firstWord operand + band * command.stripes + command.stripes)}

end ExecuteCommand

namespace Geometry

/-- The memories of an operand. -/
def memories (geometry : Geometry) : Operand → Set Nat
  | .lhs => Set.Ico 0 geometry.lhsDim
  | .rhs => Set.Ico geometry.lhsDim (geometry.lhsDim + geometry.rhsDim)

/-- The words of a slot in each memory of an operand. -/
def slotWords (geometry : Geometry) (operand : Operand) (slot : Nat) : Set Nat :=
  Set.Ico (slot * geometry.slotStripes operand) ((slot + 1) * geometry.slotStripes operand)

theorem Fits.slotStripes_lt {geometry : Geometry} (h : geometry.Fits) (operand : Operand) :
    geometry.slotStripes operand * operandSlots < Word32.size := by
  have hentries : geometry.entries operand < Word32.size := by
    cases operand with
    | lhs => exact h.lhsEntries
    | rhs => exact h.rhsEntries
  exact Nat.lt_of_le_of_lt (Nat.div_mul_le_self _ _) hentries

theorem Fits.dim_lt {geometry : Geometry} (h : geometry.Fits) (operand : Operand) :
    geometry.dim operand < Word32.size := by
  cases operand with
  | lhs => exact h.lhsDim
  | rhs => exact h.rhsDim

/-- The operands have memories of their own. -/
theorem memories_disjoint (geometry : Geometry) : Disjoint (geometry.memories .lhs) (geometry.memories .rhs) := by
  rw [Set.disjoint_left]
  rintro memory ⟨_, hlhs⟩ ⟨hrhs, _⟩
  exact Nat.not_lt.mpr hrhs hlhs

theorem slotWords_disjoint (geometry : Geometry) (operand : Operand) {first second : Nat} (h : first < second) :
    Disjoint (geometry.slotWords operand first) (geometry.slotWords operand second) := by
  rw [Set.disjoint_left]
  rintro word ⟨_, hfirst⟩ ⟨hsecond, _⟩
  have hnext : (first + 1) * geometry.slotStripes operand ≤ second * geometry.slotStripes operand :=
    Nat.mul_le_mul_right _ h
  omega

/-- The slots are within the memories. -/
theorem slotWords_subset (geometry : Geometry) (operand : Operand) {slot : Nat} (h : slot < operandSlots) :
    geometry.slotWords operand slot ⊆ Set.Iio (geometry.entries operand) := by
  rintro word ⟨_, hword⟩
  calc word < (slot + 1) * geometry.slotStripes operand := hword
    _ ≤ operandSlots * geometry.slotStripes operand := Nat.mul_le_mul_right _ h
    _ ≤ geometry.entries operand := Nat.mul_div_le _ _

end Geometry

/-- How a transfer fills a slot, and how the execute instruction of the same step reads it. -/
structure Geometry.Fills (geometry : Geometry) (operand : Operand) (fetch : FetchCommand) (block : FetchBlock)
    (execute : ExecuteCommand) : Prop where
  /-- No two rows have a word in common. -/
  distinct : ∀ first < block.blockCount, ∀ second < block.blockCount, first ≠ second →
    Disjoint (block.rowWords fetch.segmentWords first) (block.rowWords fetch.segmentWords second)
  /-- All rows are in memories of the operand, within the words of the slot. -/
  within : ∀ row < block.blockCount, ∀ place ∈ block.rowWords fetch.segmentWords row,
    place.memory ∈ geometry.memories operand ∧ place.word ∈ geometry.slotWords operand fetch.slot
  /-- The words of a row are its bytes. -/
  bytes : fetch.segmentWords * geometry.commonDim / 8 = block.blockBytes
  start : execute.firstWord operand = block.firstWord
  reads : execute.readWords (geometry.memories operand) operand =
    ⋃ row ∈ Set.Iio block.blockCount, block.rowWords fetch.segmentWords row

/-- A transfer fills its slot if the slot has room for the bands of the tile. -/
theorem Geometry.Fills.of_fields {geometry : Geometry} {operand : Operand} {fetch : FetchCommand} {block : FetchBlock}
    {execute : ExecuteCommand} (bands : Nat) (hcount : block.blockCount = bands * block.memoryCount)
    (hpos : 0 < block.memoryCount)
    (hmemories : geometry.memories operand =
      Set.Ico block.firstMemory (block.firstMemory + block.memoryCount))
    (hfirst : block.firstWord = fetch.slot * geometry.slotStripes operand)
    (hroom : bands * fetch.segmentWords ≤ geometry.slotStripes operand)
    (hbytes : fetch.segmentWords * geometry.commonDim / 8 = block.blockBytes)
    (hstart : execute.firstWord operand = block.firstWord) (hbands : execute.bands operand = bands)
    (hstripes : execute.stripes = fetch.segmentWords) : geometry.Fills operand fetch block execute := by
  constructor
  case distinct => exact fun _ _ _ _ => FetchBlock.rowWords_disjoint
  case within =>
    intro row hrow place hplace
    obtain ⟨hmemory, band, hband, hfrom, hto⟩ := (FetchBlock.mem_rows_iff hcount hpos).mp ⟨row, hrow, hplace⟩
    refine ⟨hmemories ▸ hmemory, Nat.le_trans (hfirst ▸ Nat.le_add_right _ _) hfrom, ?_⟩
    have hend : (band + 1) * fetch.segmentWords ≤ bands * fetch.segmentWords := Nat.mul_le_mul_right _ hband
    rw [Nat.succ_mul] at hend ⊢
    omega
  case bytes => exact hbytes
  case start => exact hstart
  case reads =>
    ext place
    simp only [Set.mem_iUnion, Set.mem_Iio, exists_prop]
    rw [FetchBlock.mem_rows_iff hcount hpos, ExecuteCommand.readWords, hstart, hbands, hstripes, hmemories,
      Set.mem_ofPred_eq]

namespace Layout

variable {layout : Layout} {operand : Operand}

theorem memories_eq : layout.geometry.memories operand =
    Set.Ico (layout.firstMemory operand) (layout.firstMemory operand + layout.geometry.dim operand) := by
  cases operand with
  | lhs => simp [Geometry.memories, firstMemory, Geometry.dim]
  | rhs => rfl

/-- The words of a segment are its bytes. -/
theorem segmentWords_eq (hplan : TilePlan.ofGemm layout.geometry layout.gemm = .ok layout.plan) :
    layout.plan.bandStripes * layout.geometry.commonDim / 8 = (layout.plan.operand operand).segment := by
  have hcuts := TilePlan.ofGemm_cuts hplan
  have hbytes := Nat.dvd_of_mod_eq_zero hcuts.array.commonDim_bytes
  have hdim := hcuts.array.dim_pos operand
  unfold Tiling.segment
  rw [(hcuts.tiling operand).bandBytes, (hcuts.tiling operand).dim, Geometry.stripeBytes, Nat.mul_div_assoc _ hbytes,
    Nat.mul_div_assoc _ hbytes, Nat.mul_assoc, Nat.mul_div_cancel_left _ hdim, Nat.mul_comm]

/-- What is written about a tile and its slot has room in the fields of commands. -/
theorem slot_fields (hfits : layout.geometry.Fits)
    (hplan : TilePlan.ofGemm layout.geometry layout.gemm = .ok layout.plan) (operand : Operand) (output step : Nat) :
    Word32.low layout.plan.bandStripes = layout.plan.bandStripes ∧
      Word32.low (layout.plan.operand operand).tileBands = (layout.plan.operand operand).tileBands ∧
      Word32.low (layout.stepSlot output step * (layout.plan.operand operand).slotStripes) =
        layout.stepSlot output step * (layout.plan.operand operand).slotStripes := by
  have hpos := (TilePlan.ofGemm_cuts hplan).bandStripes_pos
  have hslots := hfits.slotStripes_lt operand
  have hslot : layout.stepSlot output step * layout.geometry.slotStripes operand ≤
      layout.geometry.slotStripes operand * operandSlots := by
    rw [Nat.mul_comm]
    exact Nat.mul_le_mul_left _ (Nat.le_of_lt (stepSlot_lt output step))
  have hstripes : layout.geometry.slotStripes operand ≤ layout.geometry.slotStripes operand * operandSlots :=
    Nat.le_mul_of_pos_right _ (by decide)
  have hband := layout.gemm.bandStripes_le layout.geometry operand
  have hroom := TilePlan.ofGemm_room hplan operand
  rw [TilePlan.ofGemm_slotStripes hplan]
  rw [← TilePlan.ofGemm_bandStripes hplan] at hband
  have hbands : (layout.plan.operand operand).tileBands ≤
      (layout.plan.operand operand).tileBands * layout.plan.bandStripes := Nat.le_mul_of_pos_right _ hpos
  exact ⟨Word32.low_eq_self (by omega), Word32.low_eq_self (by omega), Word32.low_eq_self (by omega)⟩

theorem fills (hfits : layout.geometry.Fits) (hplan : TilePlan.ofGemm layout.geometry layout.gemm = .ok layout.plan)
    {bytes : Nat} (hbytes : (layout.gemm.operand operand).bytes = .ok bytes) (hsmall : bytes < Word32.size)
    {output step address : Nat} {block : FetchBlock}
    (hblock : layout.fetchBlock operand (layout.stepSlot output step) address = .ok block)
    (blocks : PerOperand (Option FetchBlock)) :
    layout.geometry.Fills operand (layout.fetchCommand (layout.stepSlot output step) blocks) block
      (layout.executeCommand output step (layout.stepSlot output step)) := by
  have hcuts := TilePlan.ofGemm_cuts hplan
  obtain ⟨hstripes, htileBands, hslotWord⟩ := slot_fields hfits hplan operand output step
  obtain ⟨-, hblockBytes, -, hblockCount⟩ := fetchBlock_eq hcuts hbytes hsmall hblock
  have hfields := eq_of_fetchBlock hcuts hblock
  have hmemories : block.memoryCount = layout.geometry.dim operand := by
    rw [hfields, (hcuts.tiling operand).dim]
    exact Word32.low_eq_self (hfits.dim_lt operand)
  have hsegment : (layout.fetchCommand (layout.stepSlot output step) blocks).segmentWords = layout.plan.bandStripes :=
    hstripes
  refine Geometry.Fills.of_fields (layout.plan.operand operand).tileBands ?_ ?_ ?_ ?_ ?_ ?_ ?_ ?_ ?_
  · rw [hblockCount, hmemories, TilePlan.ofGemm_bands hplan]
  · rw [hmemories]
    exact hcuts.array.dim_pos operand
  · rw [memories_eq, hmemories, hfields]
  · rw [hfields, ← TilePlan.ofGemm_slotStripes hplan]
    exact hslotWord
  · rw [hsegment]
    exact TilePlan.ofGemm_room hplan operand
  · rw [hsegment, hblockBytes, segmentWords_eq hplan]
  · rw [hfields]
    cases operand <;> rfl
  · rw [← htileBands]
    cases operand <;> rfl
  · rfl

/-- Every transfer of a schedule fills a slot for the execute instruction at the same position. -/
theorem ScheduleWritten.fills {schedule : Schedule} {start last : Residency} {bandPairs : Nat} {steps : List Step}
    {results : List (Instruction ResultCommand)}
    (h : layout.ScheduleWritten schedule start last bandPairs steps results) (hfits : layout.geometry.Fits)
    (hplan : TilePlan.ofGemm layout.geometry layout.gemm = .ok layout.plan)
    (hbytes : ∀ operand, ∃ bytes < Word32.size, (layout.gemm.operand operand).bytes = .ok bytes)
    {position : Nat} {fetch : Instruction FetchCommand} (hfetch : schedule.fetch[position]? = some fetch) :
    ∃ execute, schedule.execute[position]? = some execute ∧ fetch.command.slot < operandSlots ∧
      ∀ operand block, fetch.command.blocks.get operand = some block →
        layout.geometry.Fills operand fetch.command block execute.command := by
  obtain ⟨-, addresses, blocks, _, _, _, _, hwritten, rfl, hexecute⟩ := h.fetch_eq hfetch
  refine ⟨_, hexecute, stepSlot_lt _ _, fun operand block hblock => ?_⟩
  obtain ⟨_, hsmall, hbytes⟩ := hbytes operand
  exact Layout.fills hfits hplan hbytes hsmall (hwritten.fetchBlock hblock) blocks

end Layout

/-- Tiles fit their slots. The operands have memories of their own, the slots of an operand are apart and within its
memories, and every transfer of a schedule keeps to the memories of its operand and to the words of its slot, where the
execute instruction of the same step reads what was filled. -/
theorem tiles_fit_slots {layout : Layout} (hfits : layout.geometry.Fits)
    (hplan : TilePlan.ofGemm layout.geometry layout.gemm = .ok layout.plan)
    (hsmall : ∀ operand, (layout.gemm.operand operand).exactBytes < Word32.size) {start last : Residency}
    {schedule : Schedule} (hschedule : layout.schedule start = .ok (schedule, last)) :
    Disjoint (layout.geometry.memories .lhs) (layout.geometry.memories .rhs) ∧
      (∀ operand, Disjoint (layout.geometry.slotWords operand 0) (layout.geometry.slotWords operand 1)) ∧
      (∀ operand, ∀ slot < operandSlots,
        layout.geometry.slotWords operand slot ⊆ Set.Iio (layout.geometry.entries operand)) ∧
      ∀ (position : Nat) (fetch : Instruction FetchCommand), schedule.fetch[position]? = some fetch →
        ∃ execute, schedule.execute[position]? = some execute ∧ fetch.command.slot < operandSlots ∧
          ∀ operand block, fetch.command.blocks.get operand = some block →
            layout.geometry.Fills operand fetch.command block execute.command := by
  have hbytes (operand : Operand) : ∃ bytes < Word32.size, (layout.gemm.operand operand).bytes = .ok bytes :=
    ⟨_, hsmall operand, ((TilePlan.ofGemm_cuts hplan).shape operand).bytes_total
      (Nat.lt_trans (hsmall operand) (by decide))⟩
  obtain ⟨bandPairs, steps, results, hwritten⟩ := Layout.schedule_written hschedule
  refine ⟨Geometry.memories_disjoint _, fun operand => Geometry.slotWords_disjoint _ operand Nat.zero_lt_one,
    fun operand slot hslot => Geometry.slotWords_subset _ operand hslot, fun position fetch hfetch => ?_⟩
  exact hwritten.fills hfits hplan hbytes hfetch

/-- A step of the tiled product fetches a tile of the right operand into the second slot: its memories are the last two,
and its words are behind the eight of the first slot. -/
theorem tiles_fit_slots_tiled :
    ∃ schedule last fetch execute, tiledLayout.schedule .fresh = .ok (schedule, last) ∧
      schedule.fetch[17]? = some fetch ∧ schedule.execute[17]? = some execute ∧
      fetch.command.blocks.get .rhs = some ⟨0x10000540, 64, 128, 2, 8, 2, 2⟩ ∧
      tiledLayout.geometry.Fills .rhs fetch.command ⟨0x10000540, 64, 128, 2, 8, 2, 2⟩ execute.command := by
  have hblock : (tiledLayout.schedule .fresh).toOption.bind (fun (written : Schedule × Residency) =>
      written.1.fetch[17]?.bind fun fetch => fetch.command.blocks.get .rhs) =
        some ⟨0x10000540, 64, 128, 2, 8, 2, 2⟩ := by
    decide +kernel
  obtain ⟨⟨schedule, last⟩, hschedule, hblock⟩ := Option.bind_eq_some_iff.mp hblock
  obtain ⟨fetch, hfetch, hblock⟩ := Option.bind_eq_some_iff.mp hblock
  have hschedule := toOption_eq_some_iff.mp hschedule
  have hfits : tiledLayout.geometry.Fits := by constructor <;> decide
  have hsmall (operand : Operand) : (tiledLayout.gemm.operand operand).exactBytes < Word32.size := by
    cases operand <;> decide
  obtain ⟨-, -, -, hfills⟩ := tiles_fit_slots hfits tiledLayout_plan hsmall hschedule
  obtain ⟨execute, hexecute, -, hfills⟩ := hfills 17 fetch hfetch
  exact ⟨schedule, last, fetch, execute, hschedule, hfetch, hexecute, hblock, hfills .rhs _ hblock⟩

end BitSerial
