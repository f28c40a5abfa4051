import BitSerial.Proofs.Rebuilding

/-! # Which schedules are aligned

Building a schedule checks the alignment of every transfer and of every output tile as it goes. All addresses that are
checked are sums of multiples of a few strides, and every stride that an operand has leads to a tile next to its first
one. When nothing is known to be on chip, every tile is transferred at some step, so the whole walk comes down to
whether the buffers and these strides are aligned.
-/

namespace BitSerial

namespace Layout

/-- What the alignment of a product comes down to. A stride along which there is one tile only does not matter. -/
structure Aligned (layout : Layout) : Prop where
  operand : ∀ operand, addressAlign ∣ layout.addresses.operand operand
  result : elementBytes ∣ layout.addresses.result
  /-- Transfers move whole words of a channel. -/
  segment : ∀ operand, transferAlign ∣ (layout.plan.operand operand).segment
  /-- The distance of tiles along the common dimension. -/
  common : layout.plan.commonTiles = 1 ∨ ∀ operand, addressAlign ∣ (layout.plan.operand operand).segment
  /-- The distance of row tiles. -/
  rows : ∀ operand, (layout.plan.operand operand).rowTiles = 1 ∨
    addressAlign ∣ (layout.plan.operand operand).tileRows * (layout.gemm.operand operand).rowBytes
  /-- The bytes of a plane. -/
  planes : ∀ operand, (layout.gemm.operand operand).bits = 1 ∨
    addressAlign ∣ (layout.gemm.operand operand).paddedRows * (layout.gemm.operand operand).rowBytes

/-- How building a schedule may fail: by an overflow, or for its shapes if they are not aligned. -/
def Excused (layout : Layout) : Failure → Prop
  | .fault cause => cause = .overflow
  | .refused (.unsupportedShape _) => ¬ layout.Aligned
  | .refused _ => False

variable {layout : Layout} {operand : Operand}

/-- A factor that is zero when there is only one of what it counts. -/
theorem dvd_mul_of_one {align count factor stride : Nat} (hlt : factor < count) (h : count = 1 ∨ align ∣ stride) :
    align ∣ factor * stride := by
  rcases h with rfl | hstride
  · rw [Nat.lt_one_iff.mp hlt, Nat.zero_mul]
    exact Nat.dvd_zero align
  · exact Nat.dvd_mul_left_of_dvd hstride factor

/-- The narrow fields of a command keep multiples of what a channel moves. -/
theorem dvd_low_iff {align value : Nat} (hword : align ∣ Word32.size) : align ∣ Word32.low value ↔ align ∣ value :=
  Nat.dvd_mod_iff hword

theorem Aligned.tileOffset (h : layout.Aligned) {tile : TilePlace} (htile : layout.HasTile operand tile) :
    addressAlign ∣ layout.addresses.operand operand + layout.tileOffset operand tile := by
  rw [tileOffset_eq, Nat.mul_assoc tile.rowTile]
  have hcommon := dvd_mul_of_one htile.common (h.common.imp_right fun hsegment => hsegment operand)
  have hrows := dvd_mul_of_one htile.rowTile (h.rows operand)
  have hplanes := dvd_mul_of_one htile.plane (h.planes operand)
  exact Nat.dvd_add (h.operand operand) (Nat.dvd_add (Nat.dvd_add hplanes hrows) hcommon)

section Overflow

variable {residency : Residency}

theorem tileAddress_fails (hcuts : layout.plan.Cuts layout.geometry layout.gemm) (operand : Operand)
    (plane rowTile common : Nat) : Fails (· = .overflow) (layout.tileAddress operand plane rowTile common) := by
  have hplane : Fails (· = .overflow) (layout.gemm.operand operand).planeBytes :=
    .bind (Word64.fit_fails _) fun _ _ => Word64.fit_fails _
  refine hplane.bind fun _ _ => .bind (Word64.fit_fails _) fun _ _ => .bind (Word64.fit_fails _) fun _ _ => ?_
  refine .bind (Word64.fit_fails _) fun _ _ => .bind (.of_ok (hcuts.segmentBytes_eq operand)) fun _ _ => ?_
  refine .bind (Word64.fit_fails _) fun _ _ => .bind (Word64.fit_fails _) fun _ _ => ?_
  exact .bind (Word64.fit_fails _) fun _ _ => Word64.fit_fails _

theorem transfer?_fails (hcuts : layout.plan.Cuts layout.geometry layout.gemm) {slot : Nat}
    (hslot : slot < operandSlots) (operand : Operand) (address : Nat) :
    Fails (· = .overflow) (layout.transfer? operand slot address residency) := by
  refine .bind (Residency.access_settles hslot operand _).fails fun (hit, _) _ => ?_
  cases hit with
  | true => exact .of_ok rfl
  | false => exact .bind (.bind (.of_ok (hcuts.segmentBytes_eq operand)) fun _ _ => .of_ok rfl) fun _ _ => .of_ok rfl

theorem resultCommand_fails (output : Nat) : Fails (· = .overflow) (layout.resultCommand output) := by
  refine .bind (Word64.fit_fails _) fun _ _ => .bind (Word64.fit_fails _) fun _ _ => ?_
  refine .bind (Word64.fit_fails _) fun _ _ => .bind (Word64.fit_fails _) fun _ _ => ?_
  refine .bind (Word64.fit_fails _) fun _ _ => .bind (Word64.fit_fails _) fun _ _ => ?_
  exact .bind (Word64.fit_fails _) fun _ _ => .of_ok rfl

theorem announceTotal_fails (program : List (Instruction ResultCommand)) :
    Fails (· = .overflow) (announceTotal layout.gemm.resultBytes program) := by
  unfold announceTotal
  split
  · exact .of_ok rfl
  · exact .bind (.bind (Word64.fit_fails _) fun _ _ => Word64.fit_fails _) fun _ _ => .of_ok rfl

end Overflow

section Building

variable {bandPairs output step : Nat} {progress : Progress}

theorem demand_excused {condition : Prop} [Decidable condition] {defect : ShapeDefect}
    (h : layout.Aligned → condition) : Fails layout.Excused (Failure.demandShape condition defect) := by
  by_cases haligned : layout.Aligned
  · exact .of_ok (demandShape_of (h haligned))
  · exact .demandShape haligned

theorem lift_excused {α : Type} {computation : Except Fault α} (h : Fails (· = .overflow) computation) :
    Fails layout.Excused (liftM computation : Except Failure α) := by
  intro failure hfailure
  cases computation with
  | ok value => cases hfailure
  | error cause =>
    cases hfailure
    exact h cause rfl

/-- The check of a transfer fails only if the product is not aligned. -/
theorem checkTransfer_excused (hcuts : layout.plan.Cuts layout.geometry layout.gemm) {place : TilePlace}
    (hplace : layout.HasTile operand place) {slot address : Nat} {residency after : Residency}
    {block : Option FetchBlock} (haddress : address = layout.addresses.operand operand + layout.tileOffset operand place)
    (htransfer : layout.transfer? operand slot address residency = .ok (block, after)) (tile : TileIndex) :
    Fails layout.Excused (checkTransfer tile operand block) := by
  cases block with
  | none => exact .of_ok rfl
  | some block =>
    rw [eq_of_fetchBlock hcuts (transfer?_eq_some htransfer)]
    refine .bind (demand_excused fun haligned => ?_) fun _ _ => demand_excused fun haligned => ?_
    · rw [haddress]
      exact Nat.mod_eq_zero_of_dvd (haligned.tileOffset hplace)
    · have hrow : transferAlign ∣ (layout.gemm.operand operand).rowBytes := by
        rw [← hcuts.commonTiles_mul_segment operand]
        exact Nat.dvd_mul_left_of_dvd (haligned.segment operand) _
      exact ⟨Nat.mod_eq_zero_of_dvd ((dvd_low_iff (by decide)).mpr (haligned.segment operand)),
        Nat.mod_eq_zero_of_dvd ((dvd_low_iff (by decide)).mpr hrow)⟩

theorem writeStep_excused (hcuts : layout.plan.Cuts layout.geometry layout.gemm)
    (houtput : output < layout.nest.outputCount) (hstep : step < layout.nest.stepCount) :
    Fails layout.Excused (layout.writeStep bandPairs output step progress) := by
  have hplace (operand : Operand) : layout.HasTile operand _ := hasTile_needed houtput hstep
  have hslot := Nat.mod_lt (output * layout.nest.stepCount + step) (show 0 < operandSlots by decide)
  refine .bind (lift_excused (tileAddress_fails hcuts _ _ _ _)) fun lhsAddress hlhsAddress => ?_
  refine .bind (lift_excused (tileAddress_fails hcuts _ _ _ _)) fun rhsAddress hrhsAddress => ?_
  replace hlhsAddress : layout.neededAddress .lhs output step = .ok lhsAddress := lift_eq_ok_iff.mp hlhsAddress
  replace hrhsAddress : layout.neededAddress .rhs output step = .ok rhsAddress := lift_eq_ok_iff.mp hrhsAddress
  refine .bind (lift_excused (transfer?_fails hcuts hslot _ _)) fun (lhs, middle) hlhs => ?_
  refine .bind (lift_excused (transfer?_fails hcuts hslot _ _)) fun (rhs, last) hrhs => ?_
  refine .bind (checkTransfer_excused hcuts (hplace .lhs) (neededAddress_eq hcuts hlhsAddress)
    (lift_eq_ok_iff.mp hlhs) _) fun _ _ => ?_
  refine .bind (checkTransfer_excused hcuts (hplace .rhs) (neededAddress_eq hcuts hrhsAddress)
    (lift_eq_ok_iff.mp hrhs) _) fun _ _ => ?_
  refine .bind (lift_excused (Word64.fit_fails _)) fun _ _ => ?_
  exact .bind (lift_excused (Word64.fit_fails _)) fun _ _ => .of_ok rfl

theorem writeResult_excused : Fails layout.Excused (layout.writeResult bandPairs output progress) := by
  refine .bind (lift_excused (resultCommand_fails output)) fun command hcommand => ?_
  refine .bind (demand_excused fun haligned => ?_) fun _ _ => ?_
  · rw [resultCommand_eq (lift_eq_ok_iff.mp hcommand)]
    refine ⟨Nat.mod_eq_zero_of_dvd ?_, Nat.mul_mod_left _ _⟩
    exact Nat.dvd_add haligned.result (Nat.dvd_mul_left _ _)
  · refine .bind (lift_excused (Word64.fit_fails _)) fun _ _ => ?_
    exact .bind (lift_excused (Word64.fit_fails _)) fun _ _ => .of_ok rfl

/-- What is written position by position fails as its positions do. -/
theorem writeEach_fails {α : Type} {allowed : Failure → Prop} {write : Nat → Progress → Except Failure (α × Progress)}
    {count position : Nat} {before : List α}
    (h : ∀ index, index < position + count → ∀ progress, Fails allowed (write index progress)) :
    Fails allowed (writeEach write count position progress before) := by
  induction count generalizing position progress before with
  | zero => exact .of_ok rfl
  | succ count ih =>
    refine .bind (h position (by omega) progress) fun _ _ => ih fun index hindex => ?_
    exact h index (by omega)

theorem writeOutput_excused (hcuts : layout.plan.Cuts layout.geometry layout.gemm)
    (houtput : output < layout.nest.outputCount) :
    Fails layout.Excused (layout.writeOutput bandPairs output progress) := by
  refine .bind (writeEach_fails fun step hstep progress => ?_) fun _ _ => ?_
  · rw [Nat.zero_add] at hstep
    exact writeStep_excused hcuts houtput hstep
  · exact .bind writeResult_excused fun _ _ => .of_ok rfl

/-- Building a schedule fails only by an overflow, or for its shapes if they are not aligned. -/
theorem schedule_excused (hcuts : layout.plan.Cuts layout.geometry layout.gemm) (start : Residency) :
    Fails layout.Excused (layout.schedule start) := by
  refine .bind (lift_excused (Word64.fit_fails _)) fun _ _ => ?_
  refine .bind (writeEach_fails fun output houtput progress => ?_) fun _ _ => ?_
  · rw [Nat.zero_add] at houtput
    exact writeOutput_excused hcuts houtput
  · exact .bind (lift_excused (announceTotal_fails _)) fun _ _ => .of_ok rfl

end Building

section Built

variable {schedule : Schedule} {start last : Residency} {bandPairs : Nat} {steps : List Step}
  {results : List (Instruction ResultCommand)}

/-- A schedule that takes nothing for granted transfers every tile, so every tile begins at a whole word of memory. -/
theorem ScheduleWritten.tile_aligned (h : layout.ScheduleWritten schedule start last bandPairs steps results)
    (hcuts : layout.plan.Cuts layout.geometry layout.gemm) (hunknown : start.tiles = .both (.both none))
    {tile : TilePlace} (htile : layout.HasTile operand tile) :
    addressAlign ∣ layout.addresses.operand operand + layout.tileOffset operand tile ∧
      transferAlign ∣ (layout.plan.operand operand).segment := by
  obtain ⟨instruction, hinstruction, block, hblock, hbegin⟩ := h.exists_block_of_tile hcuts hunknown htile
  obtain ⟨haddress, hbytes, _⟩ := h.block_aligned hinstruction hblock
  obtain ⟨_, _, _, hfetch⟩ := h.tile_of_block hcuts hinstruction hblock
  rw [eq_of_fetchBlock hcuts hfetch] at hbytes
  exact ⟨hbegin ▸ Nat.dvd_of_mod_eq_zero haddress, (dvd_low_iff (by decide)).mp (Nat.dvd_of_mod_eq_zero hbytes)⟩

/-- The tiles next to the first one show every stride that an operand has. -/
theorem ScheduleWritten.aligned (h : layout.ScheduleWritten schedule start last bandPairs steps results)
    (hcuts : layout.plan.Cuts layout.geometry layout.gemm) (hunknown : start.tiles = .both (.both none)) :
    layout.Aligned := by
  have hbits (operand : Operand) := (hcuts.shape operand).bits_pos
  have hrows := hcuts.rowTiles_pos
  have hcommon := hcuts.commonTiles_pos
  have hfirst (operand : Operand) : layout.HasTile operand ⟨0, 0, 0⟩ := ⟨hbits operand, hrows operand, hcommon⟩
  have hbase (operand : Operand) : addressAlign ∣ layout.addresses.operand operand := by
    have hstart := (h.tile_aligned hcuts hunknown (hfirst operand)).1
    rwa [tileOffset_eq, Nat.zero_mul, Nat.zero_mul, Nat.zero_mul, Nat.zero_mul] at hstart
  have hnext {operand : Operand} {tile : TilePlace} (hplace : layout.HasTile operand tile) :
      addressAlign ∣ layout.tileOffset operand tile :=
    (Nat.dvd_add_right (hbase operand)).mp (h.tile_aligned hcuts hunknown hplace).1
  constructor
  case operand => exact hbase
  case result =>
    have hlength : 0 < results.length := h.results_length ▸ hcuts.outputCount_pos
    obtain ⟨_, _, _, hcommand, haligned, _⟩ := h.results_chain.link_getElem? (List.getElem?_eq_getElem hlength)
    rw [resultCommand_eq hcommand] at haligned
    exact (Nat.dvd_add_left (Nat.dvd_mul_left _ _)).mp (Nat.dvd_of_mod_eq_zero haligned.1)
  case segment => exact fun operand => (h.tile_aligned hcuts hunknown (hfirst operand)).2
  case common =>
    refine or_iff_not_imp_left.mpr fun hmany operand => ?_
    have hplace : layout.HasTile operand ⟨0, 0, 1⟩ := ⟨hbits operand, hrows operand, Nat.lt_of_le_of_ne hcommon
      (Ne.symm hmany)⟩
    have hstride := hnext hplace
    rwa [tileOffset_eq, Nat.zero_mul, Nat.zero_mul, Nat.zero_mul, Nat.zero_add, Nat.one_mul] at hstride
  case rows =>
    refine fun operand => or_iff_not_imp_left.mpr fun hmany => ?_
    have hplace : layout.HasTile operand ⟨0, 1, 0⟩ := ⟨hbits operand, Nat.lt_of_le_of_ne (hrows operand)
      (Ne.symm hmany), hcommon⟩
    have hstride := hnext hplace
    rwa [tileOffset_eq, Nat.zero_mul, Nat.zero_mul, Nat.zero_add, Nat.add_zero, Nat.one_mul] at hstride
  case planes =>
    refine fun operand => or_iff_not_imp_left.mpr fun hmany => ?_
    have hplace : layout.HasTile operand ⟨1, 0, 0⟩ := ⟨Nat.lt_of_le_of_ne (hbits operand) (Ne.symm hmany),
      hrows operand, hcommon⟩
    have hstride := hnext hplace
    simpa only [tileOffset_eq, Nat.zero_mul, Nat.add_zero, Nat.one_mul] using hstride

end Built

end Layout

/-- Building a schedule from nothing known to be on chip, where no arithmetic overflows, succeeds exactly for an aligned
product; any other is turned down for its shapes. -/
theorem schedule_aligned {layout : Layout} (hplan : TilePlan.ofGemm layout.geometry layout.gemm = .ok layout.plan)
    {start : Residency} (hunknown : start.tiles = .both (.both none))
    (hexact : layout.schedule start ≠ .error (.fault .overflow)) :
    ((∃ written, layout.schedule start = .ok written) ↔ layout.Aligned) ∧
      (¬ layout.Aligned → ∃ defect, layout.schedule start = .error (.refused (.unsupportedShape defect))) := by
  have hcuts := TilePlan.ofGemm_cuts hplan
  have hexcused := Layout.schedule_excused hcuts start
  cases hbuilt : layout.schedule start with
  | ok written =>
    obtain ⟨_, _, _, hwritten⟩ := Layout.schedule_written hbuilt
    have haligned := hwritten.aligned hcuts hunknown
    exact ⟨⟨fun _ => haligned, fun _ => ⟨written, rfl⟩⟩, fun hloose => absurd haligned hloose⟩
  | error failure =>
    have hfailure := hexcused failure hbuilt
    cases failure with
    | fault cause =>
      cases hfailure
      exact absurd hbuilt hexact
    | refused reason =>
      cases reason with
      | unsupportedShape defect => exact ⟨⟨nofun, fun haligned => absurd haligned hfailure⟩, fun _ => ⟨defect, rfl⟩⟩
      | _ => exact hfailure.elim

/-- The tiled product is aligned as it is placed. With its right operand sixteen bytes further it is turned down. -/
theorem schedule_aligned_tiled :
    tiledLayout.Aligned ∧
      ∃ defect, { tiledLayout with addresses := ⟨0x10000000, 0x10000410, 0x10000700⟩ }.schedule .fresh =
        .error (.refused (.unsupportedShape defect)) := by
  have hwrites : (tiledLayout.schedule .fresh).toOption.isSome := by decide +kernel
  obtain ⟨written, hwritten⟩ := Option.isSome_iff_exists.mp hwrites
  have hschedule := toOption_eq_some_iff.mp hwritten
  have haligned := (schedule_aligned tiledLayout_plan rfl (hschedule ▸ nofun)).1.mp ⟨written, hschedule⟩
  have hmoved := (@schedule_aligned { tiledLayout with addresses := ⟨0x10000000, 0x10000410, 0x10000700⟩ }
    tiledLayout_plan .fresh rfl (by decide +kernel)).2
  exact ⟨haligned, hmoved fun hloose => absurd (hloose.operand .rhs) (by decide)⟩

end BitSerial
