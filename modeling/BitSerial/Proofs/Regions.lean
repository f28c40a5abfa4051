import BitSerial.Proofs.Partition
import BitSerial.Proofs.Use

/-! # Live buffers

The regions of memory are the live buffers, each with the counts of the transfers that touched it. While a schedule is
streamed, nothing of them changes but these counts. A transfer is counted for the first region that it shares a byte
with, so regions that end below all transfers do not even count anything.
-/

namespace BitSerial

/-- A region as it was handed out. -/
def Region.buffer (region : Region) : Buffer := ⟨region.address, region.bytes⟩

/-- The live buffers. -/
def Memory.buffers (memory : Memory) : List Buffer := memory.regions.map Region.buffer

/-- Regions as they were before, followed by others for given buffers. -/
def Extends (before : List Region) (added : List Buffer) (regions : List Region) : Prop :=
  ∃ rest, regions = before ++ rest ∧ rest.map Region.buffer = added

/-- Whether a command moves nothing below an address. -/
def Command.Above (base : Nat) : Command → Prop
  | .fetch command => ∀ operand block, command.blocks.get operand = some block → base ≤ block.address
  | .execute _ => True
  | .result command => base ≤ command.address

theorem Command.above_zero (command : Command) : command.Above 0 := by
  cases command with
  | fetch command => exact fun _ _ _ => Nat.zero_le _
  | execute command => trivial
  | result command => exact Nat.zero_le _

namespace Memory

theorem touch_append {f : Region → Region} {address length : Nat} {before : List Region}
    (hbelow : ∀ region ∈ before, region.address + region.bytes ≤ address) (rest : List Region) :
    touch f address length (before ++ rest) = before ++ touch f address length rest := by
  induction before with
  | nil => rfl
  | cons region others ih =>
    have hend := hbelow region List.mem_cons_self
    have hoverlaps : region.overlaps address length = false := by
      unfold Region.overlaps Word64.saturatingAdd
      rw [decide_eq_false (by omega), Bool.false_and]
    rw [List.cons_append, touch, hoverlaps, ih fun other hother => hbelow other (List.mem_cons_of_mem _ hother)]
    rfl

theorem touch_buffers {f : Region → Region} (hf : ∀ region, (f region).buffer = region.buffer) (address length : Nat)
    (regions : List Region) : (touch f address length regions).map Region.buffer = regions.map Region.buffer := by
  induction regions with
  | nil => rfl
  | cons region others ih =>
    rw [touch]
    split
    · rw [List.map_cons, List.map_cons, hf]
    · rw [List.map_cons, List.map_cons, ih]

/-- A copy that is in order stays within a live buffer. -/
theorem exists_buffer_of_checkCopy {memory : Memory} {address length : Nat}
    (h : memory.checkCopy address length = .ok ()) :
    ∃ buffer ∈ memory.buffers, buffer.address = address ∧ length ≤ buffer.bytes := by
  unfold checkCopy regionFrom? at h
  split at h
  next => cases h
  next region hregion =>
    have haddress : region.address = address := by simpa using List.find?_some hregion
    refine ⟨region.buffer, List.mem_map_of_mem (List.mem_of_find?_eq_some hregion), haddress, ?_⟩
    by_contra hlong
    exact nomatch (if_neg hlong).symm.trans h

/-- A copy that stays within the only live buffer at its address is in order. -/
theorem checkCopy_of_unique {memory : Memory} {buffer : Buffer} (hbuffer : buffer ∈ memory.buffers)
    (hunique : ∀ other ∈ memory.buffers, other.address = buffer.address → other = buffer) {length : Nat}
    (hlength : length ≤ buffer.bytes) : memory.checkCopy buffer.address length = .ok () := by
  unfold checkCopy regionFrom?
  split
  next hnone =>
    obtain ⟨region, hregion, rfl⟩ := List.mem_map.mp hbuffer
    have hother := List.find?_eq_none.mp hnone region hregion
    exact absurd (decide_eq_true rfl) hother
  next region hregion =>
    have haddress : region.address = buffer.address := by simpa using List.find?_some hregion
    cases hunique region.buffer (List.mem_map_of_mem (List.mem_of_find?_eq_some hregion)) haddress
    exact if_pos hlength

/-- Every live buffer was cut from the part of the window that is gone. -/
theorem Used.below_next {memory : Memory} (h : memory.Used) :
    ∀ region ∈ memory.regions, region.address < memory.next ∧ region.address + region.bytes ≤ memory.next := by
  have hcount {f : Region → Region} (hf : ∀ region, (f region).buffer = region.buffer) (address length : Nat)
      {memory : Memory} (ih : ∀ region ∈ memory.regions,
        region.address < memory.next ∧ region.address + region.bytes ≤ memory.next) :
      ∀ region ∈ touch f address length memory.regions,
        region.address < memory.next ∧ region.address + region.bytes ≤ memory.next := by
    intro region hregion
    have hbuffer : region.buffer ∈ memory.regions.map Region.buffer := by
      rw [← touch_buffers hf address length]
      exact List.mem_map_of_mem hregion
    obtain ⟨old, hold, hsame⟩ := List.mem_map.mp hbuffer
    obtain ⟨haddress, hbytes⟩ := Buffer.mk.inj hsame
    rw [← haddress, ← hbytes]
    exact ih old hold
  induction h with
  | made capacity =>
    intro region hregion
    exact absurd hregion List.not_mem_nil
  | @allocate memory after bytes answer _ hallocate ih =>
    cases answer with
    | error defect => exact Memory.allocate_eq_refused hallocate ▸ ih
    | ok buffer =>
      obtain ⟨_, size, hbytes, hsize, _, _, _, rfl⟩ := Memory.allocate_eq_ok hallocate
      intro region hregion
      dsimp only at hregion ⊢
      rcases List.mem_append.mp hregion with hold | hnew
      · have hbelow := ih region hold
        omega
      · rw [List.mem_singleton.mp hnew]
        dsimp only
        omega
  | write _ hwrite ih =>
    obtain ⟨_, rfl⟩ := Memory.write_eq_ok_iff.mp hwrite
    exact ih
  | read _ hread ih =>
    obtain ⟨bytesRead, rfl⟩ := Memory.read_frame hread
    exact ih
  | free _ _ ih =>
    intro region hregion
    exact ih region (List.mem_filter.mp hregion).1
  | countRead _ address length ih =>
    exact hcount (f := fun region => { region with reads := region.reads + 1 }) (fun _ => rfl) address length ih
  | countWrite _ address length ih =>
    exact hcount (f := fun region => { region with writes := region.writes + 1 }) (fun _ => rfl) address length ih

end Memory

section Use

variable {device after : Device}

/-- A turn reaches memory only through the operation that finishes in it. -/
theorem Device.Turn.memory {stage : Stage} (h : device.Turn stage after) :
    after.memory = device.memory ∨ ∃ operation, ∃ before : Device, device.finishing? stage = some operation ∧
      before.memory = device.memory ∧ before.complete operation = .ok after := by
  cases h with
  | off => exact .inl rfl
  | @on moved handoff _ _ _ hsettle =>
    cases hfinishing : device.finishing? stage with
    | none =>
      rw [hfinishing] at hsettle
      cases hsettle
      exact .inl rfl
    | some operation =>
      rw [hfinishing] at hsettle
      exact .inr ⟨operation, device.withMove stage moved handoff, rfl, rfl, hsettle⟩

theorem Device.clearRows_used {address strideBytes rowBytes count position : Nat} {memory after : Memory}
    (h : memory.Used) (hclear : clearRows address strideBytes rowBytes count position memory = .ok after) :
    after.Used := by
  induction count generalizing position memory with
  | zero =>
    cases hclear
    exact h
  | succ count ih =>
    simp only [clearRows, bind_eq_ok_iff, Memory.clear_eq_write] at hclear
    obtain ⟨_, _, _, _, cleared, hcleared, hrest⟩ := hclear
    exact ih (h.write hcleared) hrest

theorem Device.complete_used {operation : Operation} (h : device.memory.Used)
    (hcomplete : device.complete operation = .ok after) : after.memory.Used := by
  unfold complete at hcomplete
  cases hcommand : operation.command with
  | fetch command =>
    simp only [hcommand, bind_eq_ok_iff, pure_eq_ok_iff] at hcomplete
    obtain ⟨_, _, _, _, rfl⟩ := hcomplete
    dsimp only
    generalize device.memory = memory at h
    induction command.transferList generalizing memory with
    | nil => exact h
    | cons block rest ih => exact ih _ (h.countRead block.address block.bytes)
  | execute command =>
    simp only [hcommand] at hcomplete
    cases hcomplete
    exact h
  | result command =>
    simp only [hcommand, bind_eq_ok_iff, pure_eq_ok_iff] at hcomplete
    obtain ⟨memory, hclear, bytes, _, _, _, rfl⟩ := hcomplete
    exact (clearRows_used h hclear).countWrite command.address bytes

/-- Whatever is done with a device, its memory is used as memory is. -/
theorem Device.Used.memory (h : device.Used) : device.memory.Used := by
  induction h with
  | made geometry signature clock => exact .made Memory.defaultCapacity
  | tick _ htick ih =>
    refine Device.tick_keeps _ (fun device => device.memory.Used) (fun _ h => h) ?_ ih htick
    intro device stage after h hturn
    rcases hturn.memory with hsame | ⟨operation, before, _, hbefore, hcomplete⟩
    · exact hsame ▸ h
    · exact complete_used (hbefore ▸ h) hcomplete
  | @accept device _ entry ih => cases entry <;> exact ih
  | enable _ _ ih => exact ih
  | @switch device _ counting ih =>
    rw [(device.switch_frame counting).2.2.1]
    exact ih
  | stall _ _ _ ih => exact ih
  | reset _ ih => exact ih
  | store _ hmemory _ => exact hmemory

end Use

namespace Extends

variable {before : List Region} {added : List Buffer} {regions : List Region} {base : Nat}

theorem touch (h : Extends before added regions)
    (hbelow : ∀ region ∈ before, region.address + region.bytes ≤ base) {f : Region → Region}
    (hf : ∀ region, (f region).buffer = region.buffer) {address : Nat} (haddress : base ≤ address) (length : Nat) :
    Extends before added (Memory.touch f address length regions) := by
  obtain ⟨rest, rfl, hrest⟩ := h
  refine ⟨Memory.touch f address length rest, ?_, ?_⟩
  · apply Memory.touch_append
    intro region hregion
    exact Nat.le_trans (hbelow region hregion) haddress
  · rw [Memory.touch_buffers hf, hrest]

theorem buffers (h : Extends before added regions) :
    regions.map Region.buffer = before.map Region.buffer ++ added := by
  obtain ⟨rest, rfl, hrest⟩ := h
  rw [List.map_append, hrest]

end Extends

namespace Device

variable {before : List Region} {added : List Buffer} {base : Nat}

theorem clearRows_regions {address strideBytes rowBytes count position : Nat} {memory after : Memory}
    (h : clearRows address strideBytes rowBytes count position memory = .ok after) :
    after.regions = memory.regions := by
  induction count generalizing position memory with
  | zero =>
    cases h
    rfl
  | succ count ih =>
    simp only [clearRows, bind_eq_ok_iff, Memory.clear_eq_write] at h
    obtain ⟨_, _, _, _, cleared, hcleared, hrest⟩ := h
    rw [ih hrest, (Memory.write_eq_ok_iff.mp hcleared).2]

theorem countReads_extends {blocks : List FetchBlock} {memory : Memory}
    (h : Extends before added memory.regions)
    (hbelow : ∀ region ∈ before, region.address + region.bytes ≤ base)
    (habove : ∀ block ∈ blocks, base ≤ block.address) :
    Extends before added
      (blocks.foldl (fun memory block => memory.countRead block.address block.bytes) memory).regions := by
  induction blocks generalizing memory with
  | nil => exact h
  | cons block rest ih =>
    apply ih
    · exact h.touch (f := fun region => { region with reads := region.reads + 1 }) hbelow (fun _ => rfl)
        (habove block List.mem_cons_self) block.bytes
    · intro other hother
      exact habove other (List.mem_cons_of_mem _ hother)

/-- The end of an operation counts its transfers, for none of the regions that end below them. -/
theorem complete_extends {device after : Device} {operation : Operation}
    (h : Extends before added device.memory.regions)
    (hbelow : ∀ region ∈ before, region.address + region.bytes ≤ base) (habove : operation.command.Above base)
    (hcomplete : device.complete operation = .ok after) : Extends before added after.memory.regions := by
  unfold complete at hcomplete
  cases hcommand : operation.command with
  | fetch command =>
    rw [hcommand] at habove
    simp only [hcommand, bind_eq_ok_iff, pure_eq_ok_iff] at hcomplete
    obtain ⟨_, _, _, _, rfl⟩ := hcomplete
    apply countReads_extends h hbelow
    intro block hblock
    rcases List.mem_append.mp hblock with hlhs | hrhs
    · exact habove .lhs block (Option.mem_toList.mp hlhs)
    · exact habove .rhs block (Option.mem_toList.mp hrhs)
  | execute command =>
    simp only [hcommand] at hcomplete
    cases hcomplete
    exact h
  | result command =>
    rw [hcommand] at habove
    simp only [hcommand, bind_eq_ok_iff, pure_eq_ok_iff] at hcomplete
    obtain ⟨memory, hclear, bytes, _, _, _, rfl⟩ := hcomplete
    rw [← clearRows_regions hclear] at h
    exact h.touch (f := fun region => { region with writes := region.writes + 1 }) hbelow (fun _ => rfl) habove bytes

theorem Turn.extends {device after : Device} {stage : Stage} (hturn : device.Turn stage after)
    (h : Extends before added device.memory.regions)
    (hbelow : ∀ region ∈ before, region.address + region.bytes ≤ base)
    (habove : ∀ operation, device.finishing? stage = some operation → operation.command.Above base) :
    Extends before added after.memory.regions := by
  rcases hturn.memory with hsame | ⟨operation, before, hfinishing, hbefore, hcomplete⟩
  · exact hsame ▸ h
  · exact complete_extends (hbefore ▸ h) hbelow (habove operation hfinishing) hcomplete

end Device

/-- Streaming programs that move nothing below an address leaves the regions below it as they are, and the buffers of
the others. -/
theorem Reached.extends {programs : Stage → List Operation} {start recorded : Recorded} {left : Backlog}
    (hstaged : Staged programs) (hrest : start.device.Quiescent) (h : Reached programs start left recorded)
    {before : List Region} {added : List Buffer} {base : Nat}
    (hstart : Extends before added start.device.memory.regions)
    (hbelow : ∀ region ∈ before, region.address + region.bytes ≤ base)
    (habove : ∀ stage, ∀ operation ∈ programs stage, operation.command.Above base) :
    Extends before added recorded.device.memory.regions := by
  induction h with
  | start => exact hstart
  | count _ ih => exact ih
  | @turn left recorded after turned h hturn ih =>
    have hturned := Device.tickStage_turn _ ((Recorded.turn_eq_ok_iff _).mp hturn).1
    apply hturned.extends ih hbelow
    intro operation hfinishing
    have hinFlight := ((h.flow hstaged hrest).lane turned).inFlight operation (Device.finishing?_operation _ hfinishing)
    exact habove turned operation (List.mem_of_getElem? hinFlight)
  | @pushToken _ recorded _ _ _ _ _ _ ih => exact ih
  | @pushCommand _ recorded _ _ _ _ _ _ ih => exact ih
  | stall _ _ _ ih => exact ih
  | enable _ _ ih => exact ih
  | @switch _ recorded _ counting ih =>
    rw [(recorded.device.switch_frame counting).2.2.1]
    exact ih

/-- A schedule moves nothing below the lowest of its buffers. -/
theorem Layout.ScheduleWritten.above {layout : Layout} {schedule : Schedule} {start last : Residency}
    {bandPairs bytes : Nat} {steps : List Step} {results : List (Instruction ResultCommand)}
    (h : layout.ScheduleWritten schedule start last bandPairs steps results)
    (hcuts : layout.plan.Cuts layout.geometry layout.gemm) (hbytes : layout.gemm.resultBytes = .ok bytes) {base : Nat}
    (hoperand : ∀ operand, base ≤ layout.addresses.operand operand) (hresult : base ≤ layout.addresses.result)
    {stage : Stage} {operation : Operation} (hoperation : operation ∈ schedule.program stage) :
    operation.command.Above base := by
  cases stage with
  | fetch =>
    obtain ⟨instruction, hinstruction, rfl⟩ := List.mem_map.mp hoperation
    intro operand block hblock
    obtain ⟨tile, slot, _, hfetch⟩ := h.tile_of_block hcuts hinstruction hblock
    rw [fetchBlock_address hfetch]
    exact Nat.le_trans (hoperand operand) (Nat.le_add_right _ _)
  | execute =>
    obtain ⟨instruction, _, rfl⟩ := List.mem_map.mp hoperation
    trivial
  | result =>
    obtain ⟨instruction, hinstruction, rfl⟩ := List.mem_map.mp hoperation
    exact Nat.le_trans hresult (h.result_rows_le hcuts hbytes hoperation rfl).1

end BitSerial
