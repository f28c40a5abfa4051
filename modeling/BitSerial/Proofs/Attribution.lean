import BitSerial.Proofs.Attachment

/-! # Which buffer a transfer is counted for

A transfer is counted as if it moved one contiguous range, although its rows lie apart, and for the first live region
that this range shares a byte with. The regions are in the order of their addresses and have no byte in common, a tile
begins in the buffer of its operand, and from there on the buffer has room for all bytes of the tile. So a run counts
every transfer for the buffer that it is meant for, whatever else is live on the device.
-/

namespace BitSerial

open Session (RunEnd)

namespace Buffer

/-- A buffer that lies below another one. Even one without bytes has an address of its own. -/
def Before (first second : Buffer) : Prop :=
  first.address < second.address ∧ first.address + first.bytes ≤ second.address

/-- A range of addresses that is not empty and lies in a buffer. -/
structure Holds (buffer : Buffer) (address length : Nat) : Prop where
  begins : buffer.address ≤ address
  nonempty : 0 < length
  ends : address + length ≤ buffer.address + buffer.bytes

theorem Before.ne {first second : Buffer} (h : first.Before second) : second ≠ first := by
  rintro rfl
  exact Nat.lt_irrefl _ h.1

end Buffer

namespace Memory

/-- How the live buffers lie in the window. -/
structure Ordered (memory : Memory) : Prop where
  window : windowBase ≤ memory.next ∧ memory.next ≤ windowBase + memory.capacity ∧ memory.next < Word64.size
  placed : ∀ buffer ∈ memory.buffers,
    windowBase ≤ buffer.address ∧ buffer.address < memory.next ∧ buffer.address + buffer.bytes ≤ memory.next
  before : memory.buffers.Pairwise Buffer.Before

/-- Memory whose window and live buffers stay as they are. -/
structure Unmoved (memory after : Memory) : Prop where
  capacity : after.capacity = memory.capacity
  next : after.next = memory.next
  buffers : after.buffers = memory.buffers

variable {memory after last : Memory}

/-- The buffer that was cut last is the last one. -/
theorem allocate_buffers {bytes : Nat} {buffer : Buffer} (h : memory.allocate bytes = .ok (.ok buffer, after)) :
    after.buffers = memory.buffers ++ [buffer] := by
  obtain ⟨rfl, _, _, _, _, _, _, rfl⟩ := allocate_eq_ok h
  exact List.map_append

namespace Unmoved

theorem refl (memory : Memory) : memory.Unmoved memory := ⟨rfl, rfl, rfl⟩

theorem trans (h : memory.Unmoved after) (hlast : after.Unmoved last) : memory.Unmoved last :=
  ⟨hlast.capacity.trans h.capacity, hlast.next.trans h.next, hlast.buffers.trans h.buffers⟩

theorem countRead (memory : Memory) (address length : Nat) : memory.Unmoved (memory.countRead address length) :=
  ⟨rfl, rfl, touch_buffers (f := fun region => { region with reads := region.reads + 1 }) (fun _ => rfl) _ _ _⟩

theorem countWrite (memory : Memory) (address length : Nat) : memory.Unmoved (memory.countWrite address length) :=
  ⟨rfl, rfl, touch_buffers (f := fun region => { region with writes := region.writes + 1 }) (fun _ => rfl) _ _ _⟩

theorem write {address : Nat} {data : List UInt8} (h : memory.write address data = .ok after) :
    memory.Unmoved after := by
  obtain ⟨_, rfl⟩ := write_eq_ok_iff.mp h
  exact ⟨rfl, rfl, rfl⟩

end Unmoved

namespace Ordered

theorem unmoved (h : memory.Ordered) (hsame : memory.Unmoved after) : after.Ordered := by
  constructor
  · rw [hsame.next, hsame.capacity]
    exact h.window
  · rw [hsame.buffers, hsame.next]
    exact h.placed
  · rw [hsame.buffers]
    exact h.before

/-- A live buffer ends within the address space and is no larger than the window. -/
theorem buffer_le (h : memory.Ordered) {buffer : Buffer} (hbuffer : buffer ∈ memory.buffers) :
    buffer.address + buffer.bytes < Word64.size ∧ buffer.bytes ≤ memory.capacity := by
  obtain ⟨_, hwindow, hspace⟩ := h.window
  obtain ⟨hbase, _, hend⟩ := h.placed buffer hbuffer
  omega

theorem allocate (h : memory.Ordered) {bytes : Nat} {answer : Except MemoryDefect Buffer}
    (hallocate : memory.allocate bytes = .ok (answer, after)) : after.Ordered := by
  cases answer with
  | error defect => exact allocate_eq_refused hallocate ▸ h
  | ok buffer =>
    have hbuffers := allocate_buffers hallocate
    obtain ⟨hbase, hwindow, _⟩ := h.window
    obtain ⟨rfl, size, hbytes, hsize, _, havailable, hnext, rfl⟩ := allocate_eq_ok hallocate
    rw [used] at havailable
    constructor
    case window => exact ⟨by dsimp only; omega, by dsimp only; omega, hnext⟩
    case placed =>
      rw [hbuffers]
      intro other hother
      dsimp only
      rcases List.mem_append.mp hother with hold | hnew
      · have := h.placed other hold
        omega
      · rw [List.mem_singleton.mp hnew]
        dsimp only
        omega
    case before =>
      rw [hbuffers]
      refine List.pairwise_append.mpr ⟨h.before, List.pairwise_singleton _ _, ?_⟩
      intro other hother new hnew
      exact List.mem_singleton.mp hnew ▸ (h.placed other hother).2

theorem free (h : memory.Ordered) (address : Nat) : (memory.free address).Ordered := by
  have hkept : (memory.free address).buffers.Sublist memory.buffers := List.filter_sublist.map _
  exact ⟨h.window, fun buffer hbuffer => h.placed buffer (hkept.subset hbuffer), h.before.sublist hkept⟩

end Ordered

/-- Buffers are handed out in the order of their addresses, and releasing one does not move the others. -/
theorem Used.ordered (h : memory.Used) : memory.Ordered := by
  induction h with
  | made capacity =>
    have hspace : windowBase < Word64.size := by decide
    exact ⟨⟨Nat.le_refl _, Nat.le_add_right _ _, hspace⟩, nofun, .nil⟩
  | allocate _ hallocate ih => exact ih.allocate hallocate
  | write _ hwrite ih => exact ih.unmoved (.write hwrite)
  | read _ hread ih =>
    obtain ⟨bytesRead, rfl⟩ := read_frame hread
    exact ih.unmoved ⟨rfl, rfl, rfl⟩
  | free _ address ih => exact ih.free address
  | countRead _ address length ih => exact ih.unmoved (.countRead _ address length)
  | countWrite _ address length ih => exact ih.unmoved (.countWrite _ address length)

/-- A range within one of several buffers in order touches the region of that buffer and no other one. -/
theorem touch_eq_map {f : Region → Region} {regions : List Region} {buffer : Buffer} {address length : Nat}
    (hbefore : (regions.map Region.buffer).Pairwise Buffer.Before) (hlive : buffer ∈ regions.map Region.buffer)
    (hend : buffer.address + buffer.bytes < Word64.size) (hholds : buffer.Holds address length) :
    touch f address length regions = regions.map fun region => if region.buffer = buffer then f region else region := by
  obtain ⟨hbegins, hlength, hends⟩ := hholds
  induction regions with
  | nil => cases hlive
  | cons region rest ih =>
    obtain ⟨hfirst, hrest⟩ := List.pairwise_cons.mp hbefore
    rw [touch, List.map_cons]
    by_cases hregion : region.buffer = buffer
    · have haddress : region.address = buffer.address := congrArg Buffer.address hregion
      have hbytes : region.bytes = buffer.bytes := congrArg Buffer.bytes hregion
      have hoverlaps : region.overlaps address length = true := by
        unfold Region.overlaps Word64.saturatingAdd
        simp only [Bool.and_eq_true, decide_eq_true_eq]
        omega
      have hothers : rest.map (fun region => if region.buffer = buffer then f region else region) = rest := by
        refine (List.map_congr_left fun other hother => ?_).trans (List.map_id rest)
        exact if_neg (hregion ▸ (hfirst _ (List.mem_map_of_mem hother)).ne)
      rw [if_pos hoverlaps, if_pos hregion, hothers]
    · have hlive := (List.mem_cons.mp hlive).resolve_left (Ne.symm hregion)
      have hbelow : region.address + region.bytes ≤ buffer.address := (hfirst buffer hlive).2
      have hoverlaps : ¬region.overlaps address length = true := by
        unfold Region.overlaps Word64.saturatingAdd
        simp only [Bool.and_eq_true, decide_eq_true_eq]
        omega
      rw [if_neg hoverlaps, if_neg hregion, ih hrest hlive]

theorem Ordered.touch {buffer : Buffer} (h : memory.Ordered) (hlive : buffer ∈ memory.buffers) {address length : Nat}
    (hholds : buffer.Holds address length) (f : Region → Region) :
    Memory.touch f address length memory.regions =
      memory.regions.map fun region => if region.buffer = buffer then f region else region :=
  touch_eq_map h.before hlive (h.buffer_le hlive).1 hholds

end Memory

namespace Command

/-- The transfers of an operand that a command makes. -/
def fetches (operand : Operand) : Command → Nat
  | .fetch command => (command.blocks.get operand).toList.length
  | .execute _ => 0
  | .result _ => 0

/-- The output tiles that a command writes. -/
def stores : Command → Nat
  | .fetch _ => 0
  | .execute _ => 0
  | .result _ => 1

/-- A command whose transfers, each taken as one contiguous range, lie in the buffers that they are meant for. -/
def Inside (buffers : Buffers) : Command → Prop
  | .fetch command => ∀ operand block, command.blocks.get operand = some block →
      (buffers.operand operand).Holds block.address block.bytes
  | .execute _ => True
  | .result command => buffers.result.Holds command.address (Command.result command).bytesWritten

end Command

namespace Buffers

variable (buffers : Buffers)

/-- The buffers of a product are live. -/
structure Live (live : List Buffer) : Prop where
  operand : ∀ operand, buffers.operand operand ∈ live
  result : buffers.result ∈ live

/-- What a buffer has of what is read of each operand. -/
def readsAt (reads : Operand → Nat) (buffer : Buffer) : Nat :=
  (if buffer = buffers.lhs then reads .lhs else 0) + if buffer = buffers.rhs then reads .rhs else 0

/-- What a buffer has of what is written to the result. -/
def writesAt (writes : Nat) (buffer : Buffer) : Nat := if buffer = buffers.result then writes else 0

theorem live_append (before : List Buffer) :
    buffers.Live (before ++ [buffers.lhs, buffers.rhs, buffers.result]) := by
  refine ⟨?_, List.mem_append_right _ (List.mem_cons_of_mem _ (List.mem_cons_of_mem _ List.mem_cons_self))⟩
  rintro (_ | _)
  · exact List.mem_append_right _ List.mem_cons_self
  · exact List.mem_append_right _ (List.mem_cons_of_mem _ List.mem_cons_self)

variable {buffers}

namespace Live

theorem allocate {memory after : Memory} (h : buffers.Live memory.buffers) {bytes : Nat}
    {answer : Except MemoryDefect Buffer} (hallocate : memory.allocate bytes = .ok (answer, after)) :
    buffers.Live after.buffers := by
  cases answer with
  | error defect => exact Memory.allocate_eq_refused hallocate ▸ h
  | ok buffer =>
    rw [Memory.allocate_buffers hallocate]
    exact ⟨fun operand => List.mem_append_left _ (h.operand operand), List.mem_append_left _ h.result⟩

theorem free {memory : Memory} (h : buffers.Live memory.buffers) {address : Nat}
    (hoperand : ∀ operand, (buffers.operand operand).address ≠ address) (hresult : buffers.result.address ≠ address) :
    buffers.Live (memory.free address).buffers := by
  have hkept {buffer : Buffer} (hbuffer : buffer ∈ memory.buffers) (hne : buffer.address ≠ address) :
      buffer ∈ (memory.free address).buffers := by
    obtain ⟨region, hregion, rfl⟩ := List.mem_map.mp hbuffer
    exact List.mem_map_of_mem (List.mem_filter.mpr ⟨hregion, decide_eq_true hne⟩)
  exact ⟨fun operand => hkept (h.operand operand) (hoperand operand), hkept h.result hresult⟩

end Live

variable (buffers)

/-- Counts transfers for the regions that are the buffers of a product, and for no other one. -/
def credit (reads : Operand → Nat) (writes : Nat) (region : Region) : Region :=
  { region with
    reads := region.reads + buffers.readsAt reads region.buffer
    writes := region.writes + buffers.writesAt writes region.buffer }

theorem readsAt_zero (buffer : Buffer) : buffers.readsAt (fun _ => 0) buffer = 0 := by
  unfold readsAt
  dsimp only
  rw [ite_self, ite_self]

theorem writesAt_zero (buffer : Buffer) : buffers.writesAt 0 buffer = 0 := ite_self 0

theorem readsAt_add (reads later : Operand → Nat) (buffer : Buffer) :
    buffers.readsAt (fun operand => reads operand + later operand) buffer =
      buffers.readsAt reads buffer + buffers.readsAt later buffer := by
  unfold readsAt
  dsimp only
  split_ifs <;> omega

theorem writesAt_add (writes later : Nat) (buffer : Buffer) :
    buffers.writesAt (writes + later) buffer = buffers.writesAt writes buffer + buffers.writesAt later buffer :=
  ite_add_zero

theorem readsAt_single (operand : Operand) (buffer : Buffer) :
    buffers.readsAt (fun other => if other = operand then 1 else 0) buffer =
      if buffer = buffers.operand operand then 1 else 0 := by
  cases operand with
  | lhs =>
    change (if buffer = buffers.lhs then 1 else 0) + (if buffer = buffers.rhs then 0 else 0) = _
    rw [ite_self]
    rfl
  | rhs =>
    change (if buffer = buffers.lhs then 0 else 0) + (if buffer = buffers.rhs then 1 else 0) = _
    rw [ite_self, Nat.zero_add]
    rfl

theorem credit_zero : buffers.credit (fun _ => 0) 0 = id := by
  funext region
  unfold credit
  rw [readsAt_zero, writesAt_zero]
  rfl

theorem credit_comp (reads later : Operand → Nat) (writes more : Nat) :
    buffers.credit later more ∘ buffers.credit reads writes =
      buffers.credit (fun operand => reads operand + later operand) (writes + more) := by
  funext region
  unfold credit
  rw [readsAt_add, writesAt_add, ← Nat.add_assoc, ← Nat.add_assoc]
  rfl

theorem credit_read (operand : Operand) :
    (fun region : Region =>
      if region.buffer = buffers.operand operand then { region with reads := region.reads + 1 } else region) =
      buffers.credit (fun other => if other = operand then 1 else 0) 0 := by
  funext region
  unfold credit
  rw [readsAt_single, writesAt_zero]
  by_cases hregion : region.buffer = buffers.operand operand
  · rw [if_pos hregion, if_pos hregion]
    rfl
  · rw [if_neg hregion, if_neg hregion]
    rfl

theorem credit_write :
    (fun region : Region =>
      if region.buffer = buffers.result then { region with writes := region.writes + 1 } else region) =
      buffers.credit (fun _ => 0) 1 := by
  funext region
  unfold credit writesAt
  rw [readsAt_zero]
  by_cases hregion : region.buffer = buffers.result
  · rw [if_pos hregion, if_pos hregion]
    rfl
  · rw [if_neg hregion, if_neg hregion]
    rfl

end Buffers

namespace Memory

/-- Memory after the transfers of a fetch are counted. -/
def countReads (memory : Memory) (blocks : List FetchBlock) : Memory :=
  blocks.foldl (fun memory block => memory.countRead block.address block.bytes) memory

variable {memory : Memory}

theorem Unmoved.countReads (blocks : List FetchBlock) (memory : Memory) :
    memory.Unmoved (memory.countReads blocks) := by
  induction blocks generalizing memory with
  | nil => exact .refl memory
  | cons block rest ih => exact (Unmoved.countRead memory block.address block.bytes).trans (ih _)

/-- The transfer of an operand, if there is one, is counted for its buffer. -/
theorem Ordered.countReads_credit {buffers : Buffers} (h : memory.Ordered) (hlive : buffers.Live memory.buffers)
    {operand : Operand} {block? : Option FetchBlock}
    (hholds : ∀ block, block? = some block → (buffers.operand operand).Holds block.address block.bytes) :
    (memory.countReads block?.toList).regions =
      memory.regions.map
        (buffers.credit (fun other => if other = operand then block?.toList.length else 0) 0) := by
  cases block? with
  | none =>
    simp only [Option.toList_none, List.length_nil, ite_self]
    rw [buffers.credit_zero, List.map_id]
    rfl
  | some block =>
    have htouch := h.touch (hlive.operand operand) (hholds block rfl)
      fun region => { region with reads := region.reads + 1 }
    rw [buffers.credit_read operand] at htouch
    exact htouch

/-- The transfers of a fetch are counted for the buffers of their operands. -/
theorem Ordered.transfers_credit {buffers : Buffers} (h : memory.Ordered) (hlive : buffers.Live memory.buffers)
    {command : FetchCommand} (hinside : (Command.fetch command).Inside buffers) :
    (memory.countReads command.transferList).regions =
      memory.regions.map (buffers.credit ((Command.fetch command).fetches ·) 0) := by
  have hlhs := h.countReads_credit hlive (hinside .lhs)
  have hsame := Unmoved.countReads (command.blocks.get .lhs).toList memory
  have hrhs := (h.unmoved hsame).countReads_credit (hsame.buffers.symm ▸ hlive) (hinside .rhs)
  rw [hlhs, List.map_map, buffers.credit_comp] at hrhs
  have htransfers : memory.countReads command.transferList =
      (memory.countReads (command.blocks.get .lhs).toList).countReads (command.blocks.get .rhs).toList :=
    List.foldl_append
  have hfetches : (fun operand => (if operand = Operand.lhs then (command.blocks.get .lhs).toList.length else 0) +
      if operand = Operand.rhs then (command.blocks.get .rhs).toList.length else 0) =
        ((Command.fetch command).fetches ·) := by
    funext operand
    cases operand with
    | lhs => rfl
    | rhs => exact Nat.zero_add _
  rw [htransfers, hrhs, hfetches]

end Memory

/-- The end of an operation counts each of its transfers for the buffer that it is meant for. -/
theorem Device.complete_credit {buffers : Buffers} {device after : Device} {operation : Operation}
    (hordered : device.memory.Ordered) (hlive : buffers.Live device.memory.buffers)
    (hinside : operation.command.Inside buffers) (h : device.complete operation = .ok after) :
    after.memory.regions = device.memory.regions.map
      (buffers.credit (operation.command.fetches ·) operation.command.stores) := by
  unfold complete at h
  cases hcommand : operation.command with
  | fetch command =>
    rw [hcommand] at hinside
    simp only [hcommand, bind_eq_ok_iff, pure_eq_ok_iff] at h
    obtain ⟨_, _, _, _, rfl⟩ := h
    exact hordered.transfers_credit hlive hinside
  | execute command =>
    simp only [hcommand] at h
    cases h
    have hnone : buffers.credit ((Command.execute command).fetches ·) (Command.execute command).stores = id :=
      buffers.credit_zero
    rw [hnone, List.map_id]
  | result command =>
    rw [hcommand] at hinside
    simp only [hcommand, bind_eq_ok_iff, pure_eq_ok_iff, ResultCommand.bytes_eq_ok_iff] at h
    obtain ⟨memory, hclear, bytes, ⟨_, rfl⟩, _, _, rfl⟩ := h
    have hregions := clearRows_regions hclear
    have hwindow := (clearRows_writes hclear).2.1
    have hsame : device.memory.Unmoved memory := ⟨hwindow.1, hwindow.2, congrArg (List.map Region.buffer) hregions⟩
    have htouch := (hordered.unmoved hsame).touch (hsame.buffers.symm ▸ hlive.result) hinside
      fun region => { region with writes := region.writes + 1 }
    rw [buffers.credit_write] at htouch
    exact htouch.trans (congrArg _ hregions)

theorem Command.fetches_of_ne {command : Command} (h : command.stage ≠ .fetch) (operand : Operand) :
    command.fetches operand = 0 := by
  cases command with
  | fetch command => exact absurd rfl h
  | execute command => rfl
  | result command => rfl

theorem Command.stores_of_ne {command : Command} (h : command.stage ≠ .result) : command.stores = 0 := by
  cases command with
  | fetch command => rfl
  | execute command => rfl
  | result command => exact absurd rfl h

theorem moved_singleton (count : Command → Nat) (operation : Operation) :
    moved count [operation] = count operation.command := by
  simp [moved]

/-- Counts the transfers of operations, those of fetches and those of results apart. -/
def Buffers.creditAll (buffers : Buffers) (fetched stored : List Operation) : Region → Region :=
  buffers.credit (fun operand => moved (Command.fetches operand) fetched) (moved Command.stores stored)

theorem Buffers.creditAll_comp (buffers : Buffers) (fetched stored moreFetched moreStored : List Operation) :
    buffers.creditAll moreFetched moreStored ∘ buffers.creditAll fetched stored =
      buffers.creditAll (fetched ++ moreFetched) (stored ++ moreStored) := by
  unfold creditAll
  rw [credit_comp, ← moved_append]
  congr 1
  funext operand
  exact (moved_append _ _ _).symm

namespace Device

variable {device after : Device} {stage : Stage}

/-- A turn cuts and releases no buffer. -/
theorem Turn.unmoved (h : device.Turn stage after) : device.memory.Unmoved after.memory := by
  have hextends : Extends [] device.memory.buffers after.memory.regions := by
    apply h.extends ⟨device.memory.regions, rfl, rfl⟩ fun _ hmem => absurd hmem List.not_mem_nil
    exact fun operation _ => operation.command.above_zero
  exact ⟨h.settled.window.1, h.settled.window.2, hextends.buffers⟩

theorem tick_unmoved (h : device.tick = .ok after) : device.memory.Unmoved after.memory :=
  device.tick_keeps (fun current => device.memory.Unmoved current.memory) (fun _ h => h)
    (fun _ _ _ h hturn => h.trans hturn.unmoved) (.refl _) h

/-- A turn counts the transfers of the operation that finishes in it. -/
theorem Turn.credit {buffers : Buffers} (h : device.Turn stage after) (hordered : device.memory.Ordered)
    (hlive : buffers.Live device.memory.buffers)
    (hinside : ∀ operation, device.finishing? stage = some operation → operation.command.Inside buffers) :
    after.memory.regions = device.memory.regions.map
      (buffers.creditAll (device.finishing? stage).toList (device.finishing? stage).toList) := by
  have hnone : buffers.creditAll [] [] = id := buffers.credit_zero
  cases h with
  | off hoff =>
    have hfinishing : device.finishing? stage = none := by simp [finishing?, hoff]
    rw [hfinishing, Option.toList_none, hnone, List.map_id]
  | @on moved handoff _ _ _ hsettle =>
    cases hfinishing : device.finishing? stage with
    | none =>
      rw [hfinishing] at hsettle
      cases hsettle
      rw [Option.toList_none, hnone, List.map_id]
      rfl
    | some operation =>
      rw [hfinishing] at hsettle
      simp only [Buffers.creditAll, Option.toList_some, moved_singleton]
      exact @complete_credit _ (device.withMove stage moved handoff) _ _ hordered hlive (hinside operation hfinishing)
        hsettle

end Device

namespace Reached

variable {programs : Stage → List Operation} {start recorded : Recorded} {left : Backlog}

/-- Streaming cuts and releases no buffer. -/
theorem unmoved (h : Reached programs start left recorded) : start.device.memory.Unmoved recorded.device.memory := by
  induction h with
  | start => exact .refl _
  | count _ ih => exact ih
  | turn _ hturn ih => exact ih.trans (Device.tickStage_turn _ ((Recorded.turn_eq_ok_iff _).mp hturn).1).unmoved
  | pushToken _ _ _ ih => exact ih
  | pushCommand _ _ _ ih => exact ih
  | stall _ _ _ ih => exact ih
  | enable _ _ ih => exact ih
  | @switch _ recorded _ counting ih =>
    rw [(recorded.device.switch_frame counting).2.2.1]
    exact ih

/-- Streaming programs whose transfers stay in the buffers of a product counts for these buffers what has finished. -/
theorem credit {buffers : Buffers} (hstaged : Staged programs) (hrest : start.device.Quiescent)
    (h : Reached programs start left recorded) (hfresh : start.trail = [])
    (hordered : start.device.memory.Ordered)
    (hlive : buffers.Live start.device.memory.buffers)
    (hinside : ∀ stage, ∀ operation ∈ programs stage, operation.command.Inside buffers) :
    recorded.device.memory.regions = start.device.memory.regions.map
      (buffers.creditAll (finishedOf .fetch recorded.trail) (finishedOf .result recorded.trail)) := by
  induction h with
  | start =>
    have hnone : buffers.creditAll (finishedOf .fetch []) (finishedOf .result []) = id := buffers.credit_zero
    rw [hfresh, hnone, List.map_id]
  | count _ ih => exact ih
  | @turn left recorded after turned h hturn ih =>
    obtain ⟨hdevice, htrail⟩ := (Recorded.turn_eq_ok_iff _).mp hturn
    have hturn := Device.tickStage_turn _ hdevice
    have hflow := h.flow hstaged hrest
    have hstage : ∀ operation, recorded.device.finishing? turned = some operation →
        operation.command.stage = turned := fun operation hfinishing =>
      hflow.operation_staged hstaged (Device.finishing?_operation _ hfinishing)
    have hcredit := hturn.credit (hordered.unmoved h.unmoved) (h.unmoved.buffers.symm ▸ hlive)
      fun operation hfinishing => hinside turned operation
        (List.mem_of_getElem? ((hflow.lane turned).inFlight operation (Device.finishing?_operation _ hfinishing)))
    -- what finishes in the turn of another stage makes no transfers of this kind
    have hsame : buffers.creditAll (recorded.device.finishing? turned).toList
          (recorded.device.finishing? turned).toList =
        buffers.creditAll (finishedOf .fetch [.turn turned recorded.device])
          (finishedOf .result [.turn turned recorded.device]) := by
      unfold Buffers.creditAll
      rw [moved_finishing hstage fun _ => Command.stores_of_ne]
      congr 1
      funext operand
      exact moved_finishing hstage fun _ hne => Command.fetches_of_ne hne operand
    rw [hcredit, hsame, ih, List.map_map, buffers.creditAll_comp, htrail, finishedOf_append, finishedOf_append]
  | pushToken _ _ _ ih => exact ih
  | pushCommand _ _ _ ih => exact ih
  | stall _ _ _ ih => exact ih
  | enable _ _ ih => exact ih
  | @switch _ recorded _ counting ih =>
    rw [(recorded.device.switch_frame counting).2.2.1]
    exact ih

end Reached

/-- The rows of a strided range end where they would without the space between them, or later. -/
theorem mul_le_strided {count width stride : Nat} (hcount : 0 < count) (hwidth : width ≤ stride) :
    count * width ≤ (count - 1) * stride + width := by
  calc count * width = (count - 1 + 1) * width := by rw [Nat.sub_add_cancel hcount]
    _ = (count - 1) * width + width := Nat.succ_mul _ _
    _ ≤ (count - 1) * stride + width := Nat.add_le_add_right (Nat.mul_le_mul_left _ hwidth) _

namespace Layout

variable {layout : Layout}

/-- As many bytes as a tile has lie in the buffer of its operand, from where the tile begins. -/
theorem HasTile.holds {operand : Operand} {tile : TilePlace} (h : layout.HasTile operand tile)
    (hcuts : layout.plan.Cuts layout.geometry layout.gemm) {bytes : Nat}
    (hbytes : (layout.gemm.operand operand).bytes = .ok bytes) (hsmall : bytes < Word32.size) {slot : Nat}
    {block : FetchBlock}
    (hblock : layout.fetchBlock operand slot (layout.addresses.operand operand + layout.tileOffset operand tile) =
      .ok block) : (Buffer.mk (layout.addresses.operand operand) bytes).Holds block.address block.bytes := by
  obtain ⟨haddress, hblockBytes, _, hcount⟩ := fetchBlock_eq hcuts hbytes hsmall hblock
  have hrows := (hcuts.tiling operand).tileRows_pos
  have hlast : layout.HasRow operand ⟨tile, (layout.plan.operand operand).tileRows - 1⟩ :=
    ⟨h, Nat.sub_one_lt (Nat.ne_of_gt hrows)⟩
  have hend := hlast.end_le hcuts hbytes
  rw [rowOffset_eq] at hend
  dsimp only at hend
  have hstrided := mul_le_strided hrows (hcuts.segment_le operand)
  rw [FetchBlock.bytes, haddress, hblockBytes, hcount, Nat.mul_comm]
  refine ⟨Nat.le_add_right _ _, Nat.mul_pos hrows (hcuts.segment_pos operand), ?_⟩
  dsimp only
  omega

namespace ScheduleWritten

variable {schedule : Schedule} {start last : Residency} {bandPairs : Nat} {steps : List Step}
  {results : List (Instruction ResultCommand)}

/-- As many bytes as an output tile has lie in the buffer of the result, from where the tile begins. -/
theorem result_holds (h : layout.ScheduleWritten schedule start last bandPairs steps results)
    (hcuts : layout.plan.Cuts layout.geometry layout.gemm) {bytes : Nat} (hbytes : layout.gemm.resultBytes = .ok bytes)
    (hsmall : bytes < Word32.size) {instruction : Instruction ResultCommand}
    (hinstruction : instruction ∈ schedule.result) :
    (Buffer.mk layout.addresses.result bytes).Holds instruction.command.address
      (Command.result instruction.command).bytesWritten := by
  have hoperation : instruction.map Command.result ∈ schedule.program .result := List.mem_map_of_mem hinstruction
  obtain ⟨hbegin, hrows⟩ := h.result_rows_le hcuts hbytes hoperation rfl
  obtain ⟨output, hat⟩ := List.getElem?_of_mem hinstruction
  obtain ⟨totalBytes, hcommand, _⟩ := h.result_eq hat
  have hlhsRows := hcuts.low_tileRows hbytes hsmall .lhs
  have hrhsRows := hcuts.low_tileRows hbytes hsmall .rhs
  have hlhsCount : instruction.command.lhsRows = layout.plan.lhs.tileRows := by rw [hcommand]; exact hlhsRows
  have hrhsCount : instruction.command.rhsRows = layout.plan.rhs.tileRows := by rw [hcommand]; exact hrhsRows
  have hstride : instruction.command.strideBytes = layout.gemm.lhs.paddedRows * elementBytes := by rw [hcommand]
  have hrhsPos : 0 < instruction.command.rhsRows := hrhsCount ▸ (hcuts.tiling .rhs).tileRows_pos
  have hrowPos : 0 < instruction.command.rowBytes := by
    rw [ResultCommand.rowBytes, hlhsCount]
    exact Nat.mul_pos (hcuts.tiling .lhs).tileRows_pos (by decide)
  have hrow : instruction.command.rowBytes ≤ instruction.command.strideBytes := by
    rw [ResultCommand.rowBytes, hlhsCount, hstride]
    exact Nat.mul_le_mul_right _ (hcuts.tileRows_le .lhs)
  have hend := hrows (instruction.command.rhsRows - 1) (Nat.sub_one_lt (Nat.ne_of_gt hrhsPos))
  have hstrided := mul_le_strided hrhsPos hrow
  refine ⟨hbegin, Nat.mul_pos hrhsPos hrowPos, ?_⟩
  change instruction.command.address + instruction.command.rhsRows * instruction.command.rowBytes ≤
    layout.addresses.result + bytes
  omega

/-- Every transfer of a schedule lies in the buffer that it is meant for. -/
theorem inside (h : layout.ScheduleWritten schedule start last bandPairs steps results)
    (hcuts : layout.plan.Cuts layout.geometry layout.gemm) {buffers : Buffers}
    (haddresses : layout.addresses = buffers.addresses)
    (hoperand : ∀ operand, (layout.gemm.operand operand).bytes = .ok (buffers.operand operand).bytes ∧
      (buffers.operand operand).bytes < Word32.size)
    (hresult : layout.gemm.resultBytes = .ok buffers.result.bytes ∧ buffers.result.bytes < Word32.size) {stage : Stage}
    {operation : Operation} (hoperation : operation ∈ schedule.program stage) : operation.command.Inside buffers := by
  cases stage with
  | fetch =>
    obtain ⟨instruction, hinstruction, rfl⟩ := List.mem_map.mp hoperation
    intro operand block hblock
    obtain ⟨tile, slot, htile, hfetch⟩ := h.tile_of_block hcuts hinstruction hblock
    have hholds := htile.holds hcuts (hoperand operand).1 (hoperand operand).2 hfetch
    rw [haddresses] at hholds
    cases operand with
    | lhs => exact hholds
    | rhs => exact hholds
  | execute =>
    obtain ⟨instruction, _, rfl⟩ := List.mem_map.mp hoperation
    trivial
  | result =>
    obtain ⟨instruction, hinstruction, rfl⟩ := List.mem_map.mp hoperation
    have hholds := h.result_holds hcuts hresult.1 hresult.2 hinstruction
    rw [haddresses] at hholds
    exact hholds

end ScheduleWritten

end Layout

namespace Schedule

/-- The fetch instructions of a schedule that transfer a tile of an operand. -/
def fetches (schedule : Schedule) (operand : Operand) : Nat :=
  schedule.fetch.countP fun instruction => (instruction.command.blocks.get operand).isSome

variable (schedule : Schedule)

theorem moved_fetches (operand : Operand) :
    moved (Command.fetches operand) (schedule.program .fetch) = schedule.fetches operand := by
  unfold moved fetches program
  induction schedule.fetch with
  | nil => rfl
  | cons first rest ih =>
    rw [List.map_cons, List.map_cons, List.sum_cons, ih, List.countP_cons, Nat.add_comm]
    congr 1
    change (first.command.blocks.get operand).toList.length = _
    cases first.command.blocks.get operand <;> rfl

theorem moved_stores : moved Command.stores (schedule.program .result) = schedule.result.length := by
  unfold moved program
  rw [List.map_map]
  exact (congrArg List.sum List.map_const').trans (List.sum_replicate_nat.trans (Nat.mul_one _))

end Schedule

section Others

/-- What others may do with a device that is lent to them, in any order: all that hosts can do, except that they
release none of the buffers of a product. -/
inductive Device.Lent (buffers : Buffers) (device : Device) : Device → Prop where
  | refl : Lent buffers device device
  | tick {lent after : Device} (h : Lent buffers device lent) (htick : lent.tick = .ok after) :
      Lent buffers device after
  | accept {lent : Device} (h : Lent buffers device lent) (entry : Entry) : Lent buffers device (lent.accept entry)
  | enable {lent : Device} (h : Lent buffers device lent) (enabled : PerStage Bool) :
      Lent buffers device { lent with enabled }
  | switch {lent : Device} (h : Lent buffers device lent) (counting : Bool) :
      Lent buffers device (lent.switch counting)
  | stall {lent : Device} (h : Lent buffers device lent) (stage : Stage) (stalled : Bool) :
      Lent buffers device (lent.stall stage stalled)
  | reset {lent : Device} (h : Lent buffers device lent) : Lent buffers device lent.reset
  | allocate {lent after : Device} {bytes : Nat} {answer : Except MemoryDefect Buffer}
      (h : Lent buffers device lent) (hallocate : lent.allocate bytes = .ok (answer, after)) :
      Lent buffers device after
  | free {lent : Device} {address : Nat} (h : Lent buffers device lent)
      (hoperand : ∀ operand, (buffers.operand operand).address ≠ address) (hresult : buffers.result.address ≠ address) :
      Lent buffers device (lent.free address)
  | copyIn {lent after : Device} {address : Nat} {data : List UInt8} {answer : Except MemoryDefect Unit}
      (h : Lent buffers device lent) (hcopy : lent.copyIn address data = .ok (answer, after)) :
      Lent buffers device after
  | copyOut {lent after : Device} {address length : Nat} {answer : Except MemoryDefect (List UInt8)}
      (h : Lent buffers device lent) (hcopy : lent.copyOut address length = .ok (answer, after)) :
      Lent buffers device after

variable {buffers : Buffers} {device after : Device}

/-- Others leave the live buffers in order, and those of the product live. -/
theorem Device.Lent.memory (h : device.Lent buffers after) (hordered : device.memory.Ordered)
    (hlive : buffers.Live device.memory.buffers) :
    after.memory.Ordered ∧ buffers.Live after.memory.buffers := by
  have hunmoved {memory last : Memory} (hkept : memory.Ordered ∧ buffers.Live memory.buffers)
      (hsame : memory.Unmoved last) : last.Ordered ∧ buffers.Live last.buffers :=
    ⟨hkept.1.unmoved hsame, hsame.buffers.symm ▸ hkept.2⟩
  induction h with
  | refl => exact ⟨hordered, hlive⟩
  | tick _ htick ih => exact hunmoved ih (tick_unmoved htick)
  | accept _ entry ih => cases entry <;> exact ih
  | enable _ _ ih => exact ih
  | @switch lent _ counting ih =>
    rw [(lent.switch_frame counting).2.2.1]
    exact ih
  | stall _ _ _ ih => exact ih
  | reset _ ih => exact ih
  | allocate _ hallocate ih =>
    simp only [Device.allocate, bind_eq_ok_iff, pure_eq_ok_iff, Prod.exists, Prod.mk.injEq] at hallocate
    obtain ⟨_, memory, hallocate, rfl, rfl⟩ := hallocate
    exact ⟨ih.1.allocate hallocate, ih.2.allocate hallocate⟩
  | @free _ address _ hoperand hresult ih => exact ⟨ih.1.free address, ih.2.free hoperand hresult⟩
  | copyIn _ hcopy ih =>
    simp only [Device.copyIn, bind_eq_ok_iff, pure_eq_ok_iff, Prod.exists, Prod.mk.injEq] at hcopy
    obtain ⟨_, memory, hcopy, rfl, rfl⟩ := hcopy
    rcases Memory.copyIn_eq_ok hcopy with ⟨_, hwrite⟩ | ⟨_, rfl⟩
    · exact hunmoved ih (.write hwrite)
    · exact ih
  | copyOut _ hcopy ih =>
    simp only [Device.copyOut, bind_eq_ok_iff, pure_eq_ok_iff, Prod.exists, Prod.mk.injEq] at hcopy
    obtain ⟨_, memory, hcopy, rfl, rfl⟩ := hcopy
    obtain ⟨bytesRead, rfl⟩ := Memory.copyOut_frame hcopy
    exact hunmoved ih ⟨rfl, rfl, rfl⟩

end Others

/-- What a session can come to while others use its device as well. They get the device between two operations of the
session, and what they give back has nothing queued or in flight. -/
inductive SharedHistory (device : Device) : Session → Prop where
  | attach {gemm : Gemm} {options : Options} {session : Session}
      (h : Session.attach device gemm options = .ok (.attached session)) : SharedHistory device session
  | run {session after : Session} {patience : Nat} {surroundings : Surroundings} {ended : RunEnd}
      (h : SharedHistory device session) (hrun : session.run patience surroundings = .ok (ended, after))
      (hended : ended ≠ .unfinished) : SharedHistory device after
  | setOperand {session after : Session} {operand : Operand} {packed : Packed} {answer : Except Refusal Unit}
      (h : SharedHistory device session) (hset : session.setOperand operand packed = .ok (answer, after)) :
      SharedHistory device after
  | readResult {session after : Session} {length : Nat} {answer : Except Refusal (List Int)}
      (h : SharedHistory device session) (hread : session.readResult length = .ok (answer, after)) :
      SharedHistory device after
  | reset {session : Session} (h : SharedHistory device session) : SharedHistory device session.reset
  | configure {session : Session} (h : SharedHistory device session) (options : Options) :
      SharedHistory device { session with options }
  | lend {session : Session} {returned : Device} (h : SharedHistory device session)
      (hlent : session.device.Lent session.buffers returned) (hrest : returned.Quiescent) :
      SharedHistory device { session with device := returned }

/-- The buffers of a product are three different ones. -/
theorem Placed.apart {device : Device} {geometry : Geometry} {gemm : Gemm} {plan : TilePlan} {buffers : Buffers}
    (h : Placed device geometry gemm plan buffers) :
    [buffers.lhs, buffers.rhs, buffers.result].Pairwise (·.address ≠ ·.address) := by
  obtain ⟨hlhs, hrhs⟩ := h.ordered
  simp only [List.pairwise_cons, List.mem_cons, List.not_mem_nil, or_false, forall_eq_or_imp, forall_eq, false_implies,
    implies_true, List.Pairwise.nil, and_true]
  omega

namespace Session

/-- A planned product whose buffers are live, on a device with nothing queued or in flight. -/
structure Hosted (session : Session) : Prop where
  plan : planFor session.geometry session.gemm = .ok session.plan
  operand : ∀ operand, (session.gemm.operand operand).bytes = .ok (session.buffers.operand operand).bytes
  result : session.gemm.resultBytes = .ok session.buffers.result.bytes
  apart : [session.buffers.lhs, session.buffers.rhs, session.buffers.result].Pairwise (·.address ≠ ·.address)
  ordered : session.device.memory.Ordered
  live : session.buffers.Live session.device.memory.buffers
  rest : session.device.Quiescent

/-- A run is refused before it begins, or it streams the next schedule. -/
theorem run_eq_ok {session after : Session} {patience : Nat} {surroundings : Surroundings} {ended : RunEnd}
    (h : session.run patience surroundings = .ok (ended, after)) :
    (∃ reason, ended = .refused reason) ∧ after = session ∨
      ∃ schedule residency streamEnd last, session.nextSchedule = .ok (schedule, residency) ∧
        streamThrough session.options surroundings patience schedule (⟨session.device, []⟩ : Recorded) =
          .ok (streamEnd, last) ∧
        (ended, after) = ({ session with residency } : Session).conclude schedule streamEnd last.device := by
  have hwatched := (Watch.begin session).run_session patience surroundings
  rw [show (Watch.begin session).session = session from rfl, h, map_eq_ok_iff] at hwatched
  obtain ⟨⟨_, watched⟩, hrun, hsame⟩ := hwatched
  obtain ⟨rfl, rfl⟩ := Prod.mk.inj hsame
  rcases Watch.run_eq_ok_iff.mp hrun with ⟨reason, _, hended, rfl⟩ |
    ⟨schedule, residency, streamEnd, last, hschedule, hstream, hend, _, _⟩
  · exact .inl ⟨⟨reason, hended⟩, rfl⟩
  · exact .inr ⟨schedule, residency, streamEnd, last, hschedule, hstream, hend⟩

namespace Hosted

variable {session after : Session}

theorem attach {device : Device} {gemm : Gemm} {options : Options} (hordered : device.memory.Ordered)
    (h : attach device gemm options = .ok (.attached session)) : session.Hosted := by
  obtain ⟨hplaced, hoff, _⟩ := attach_eq_ok h
  cases attach_attaches h with
  | @attached _ described _ _ buffers hsigned hdescribed _ hallocate =>
    have hdescribed := hordered.unmoved ((Device.tick_unmoved hsigned).trans (Device.tick_unmoved hdescribed))
    have hlive := buffers.live_append described.memory.buffers
    rw [Memory.buffers, ← (allocateBuffers_regions hallocate).2.buffers] at hlive
    refine ⟨hplaced.plan, hplaced.operand, hplaced.result, hplaced.apart, ?_, hlive, hoff.quiescent⟩
    cases allocateBuffers_cuts hallocate with
    | cut _ hlhs _ hrhs _ hresult => exact ((hdescribed.allocate hlhs).allocate hrhs).allocate hresult

theorem run (h : session.Hosted) {patience : Nat} {surroundings : Surroundings} {ended : RunEnd}
    (hrun : session.run patience surroundings = .ok (ended, after)) (hended : ended ≠ .unfinished) :
    after.Hosted := by
  rcases run_eq_ok hrun with ⟨_, rfl⟩ | ⟨schedule, residency, streamEnd, last, hschedule, hstream, hend⟩
  · exact h
  · obtain ⟨bandPairs, steps, results, hwritten⟩ := Layout.schedule_written hschedule
    obtain ⟨left, reached, hreached, hlast⟩ := Reached.streamThrough hstream
    have hordered := h.ordered.unmoved hreached.unmoved
    have hlive : session.buffers.Live reached.device.memory.buffers := hreached.unmoved.buffers.symm ▸ h.live
    subst hlast
    cases streamEnd with
    | finished counters =>
      obtain ⟨_, rfl⟩ := Prod.mk.inj hend
      exact ⟨h.plan, h.operand, h.result, h.apart, hordered, hlive,
        (streamThrough_finished hwritten.rotates h.rest hstream).off.quiescent⟩
    | stopped reason =>
      obtain ⟨_, rfl⟩ := Prod.mk.inj hend
      exact ⟨h.plan, h.operand, h.result, h.apart, hordered, hlive, reached.device.reset_quiescent⟩
    | exhausted => exact absurd (Prod.mk.inj hend).1 hended

end Hosted

end Session

/-- Whatever was done with a session and with its device, its buffers are live and nothing is queued. -/
theorem SharedHistory.hosted {device : Device} {session : Session} (hordered : device.memory.Ordered)
    (h : SharedHistory device session) : session.Hosted := by
  induction h with
  | attach h => exact .attach hordered h
  | run _ hrun hended ih => exact ih.run hrun hended
  | setOperand _ hset ih =>
    rcases Session.setOperand_eq_ok hset with ⟨_, rfl⟩ | ⟨_, _, _, memory, hwrite, rfl⟩
    · exact ih
    · have hsame := Memory.Unmoved.write hwrite
      exact ⟨ih.plan, ih.operand, ih.result, ih.apart, ih.ordered.unmoved hsame, hsame.buffers.symm ▸ ih.live,
        ih.rest.of_eq rfl rfl⟩
  | readResult _ hread ih =>
    obtain ⟨bytesRead, rfl⟩ := Session.readResult_frame hread
    exact ⟨ih.plan, ih.operand, ih.result, ih.apart, ih.ordered.unmoved ⟨rfl, rfl, rfl⟩, ih.live, ih.rest.of_eq rfl rfl⟩
  | @reset session _ ih =>
    exact ⟨ih.plan, ih.operand, ih.result, ih.apart, ih.ordered, ih.live, session.device.reset_quiescent⟩
  | configure _ _ ih => exact ⟨ih.plan, ih.operand, ih.result, ih.apart, ih.ordered, ih.live, ih.rest⟩
  | lend _ hlent hrest ih =>
    obtain ⟨hordered, hlive⟩ := hlent.memory ih.ordered ih.live
    exact ⟨ih.plan, ih.operand, ih.result, ih.apart, hordered, hlive, hrest⟩

/-- How a run counts the transfers of its schedule. -/
structure Session.Attributes (session : Session) (schedule : Schedule) (after : Session) : Prop where
  /-- The buffers of the session are three different ones that are live, and a live buffer is told by its address. -/
  live : session.buffers.Live session.device.memory.buffers
  apart : [session.buffers.lhs, session.buffers.rhs, session.buffers.result].Pairwise (·.address ≠ ·.address)
  distinct : session.device.memory.buffers.Pairwise (·.address ≠ ·.address)
  /-- Every other region, and every other count, is as it was. -/
  regions : after.device.memory.regions =
    session.device.memory.regions.map (session.buffers.credit schedule.fetches session.layout.nest.outputCount)

theorem Session.Hosted.attributes {session after : Session} (h : session.Hosted)
    (hcapacity : session.device.memory.capacity < Word32.size) {patience : Nat} {surroundings : Surroundings}
    {report : Report} (hrun : session.run patience surroundings = .ok (.finished report, after)) :
    ∃ schedule residency, session.nextSchedule = .ok (schedule, residency) ∧ session.Attributes schedule after := by
  rcases run_eq_ok hrun with ⟨⟨_, hended⟩, _⟩ | ⟨schedule, residency, streamEnd, last, hschedule, hstream, hend⟩
  · cases hended
  · refine ⟨schedule, residency, hschedule, h.live, h.apart, ?_, ?_⟩
    · exact h.ordered.before.imp fun hbefore => Nat.ne_of_lt hbefore.1
    have hcuts : session.layout.plan.Cuts session.layout.geometry session.layout.gemm :=
      TilePlan.ofGemm_cuts (planFor_eq_ok h.plan).1
    obtain ⟨bandPairs, steps, results, hwritten⟩ := Layout.schedule_written hschedule
    have hsmall {buffer : Buffer} (hbuffer : buffer ∈ session.device.memory.buffers) : buffer.bytes < Word32.size :=
      Nat.lt_of_le_of_lt (h.ordered.buffer_le hbuffer).2 hcapacity
    cases streamEnd with
    | stopped reason => cases (Prod.mk.inj hend).1
    | exhausted => cases (Prod.mk.inj hend).1
    | finished counters =>
      obtain ⟨_, rfl⟩ := Prod.mk.inj hend
      have hstreamed := streamThrough_finished hwritten.rotates h.rest hstream
      have hfinished := hstreamed.finished h.rest
      obtain ⟨left, hreached, _⟩ := hstreamed.reached
      have hcredit := hreached.credit schedule.program_staged h.rest rfl h.ordered h.live
        fun stage operation hoperation => hwritten.inside hcuts rfl
          (fun operand => ⟨h.operand operand, hsmall (h.live.operand operand)⟩) ⟨h.result, hsmall h.live.result⟩
          hoperation
      rw [hfinished, hfinished] at hcredit
      unfold Buffers.creditAll at hcredit
      rw [← hwritten.result_length, ← schedule.moved_stores]
      have hfetches := funext schedule.moved_fetches
      rw [← hfetches]
      exact hcredit

/-- Whatever else is live on the device of a session, and whatever was done with both before, a run that comes through
counts for the buffer of each operand the fetch instructions that transfer a tile of it, for the buffer of the result
the output tiles, and nothing else. -/
theorem transfers_attributed {device : Device} {session after : Session} (hused : device.Used)
    (hshared : SharedHistory device session) (hcapacity : session.device.memory.capacity < Word32.size)
    {patience : Nat} {surroundings : Surroundings} {report : Report}
    (hrun : session.run patience surroundings = .ok (.finished report, after)) :
    ∃ schedule residency, session.nextSchedule = .ok (schedule, residency) ∧ session.Attributes schedule after :=
  (hshared.hosted hused.memory.ordered).attributes hcapacity hrun

/-- A device with a live buffer that has no bytes. -/
def sharedDevice : Device :=
  { Device.ofGeometry .reference with
    memory := { Memory.ofCapacity 4096 with
      regions := [⟨Memory.windowBase, 0, 0, 0⟩]
      next := Memory.windowBase + 64 } }

theorem sharedDevice_used : sharedDevice.Used := by
  have hallocate : (Memory.ofCapacity 4096).allocate 0 = .ok (.ok ⟨Memory.windowBase, 0⟩, sharedDevice.memory) := by
    refine bind_eq_ok_iff.mpr ⟨64, by decide, ?_⟩
    dsimp only
    rw [if_pos (by decide)]
    exact bind_eq_ok_iff.mpr ⟨Memory.windowBase + 64, by decide, rfl⟩
  exact .store (.made .reference expectedSignature defaultClock) (.allocate (.made 4096) hallocate)

/-- Buffers without bytes below and above those of the small product are left alone by its first run, which transfers
three tiles of the left operand, two of the right one and one of the result. -/
theorem transfers_attributed_small :
    ∃ session schedule report after, SharedHistory sharedDevice session ∧
      session.run 1000 (.still false) = .ok (.finished report, after) ∧ session.Attributes schedule after ∧
      session.device.memory.regions = [⟨0x10000000, 0, 0, 0⟩, ⟨0x10000040, 1536, 0, 0⟩, ⟨0x10000640, 512, 0, 0⟩,
        ⟨0x10000840, 256, 0, 0⟩, ⟨0x10000940, 0, 0, 0⟩] ∧
      after.device.memory.regions = [⟨0x10000000, 0, 0, 0⟩, ⟨0x10000040, 1536, 3, 0⟩, ⟨0x10000640, 512, 2, 0⟩,
        ⟨0x10000840, 256, 0, 1⟩, ⟨0x10000940, 0, 0, 0⟩] := by
  have hruns : (Session.attach sharedDevice smallGemm ⟨none, false⟩).toOption.bind (fun attachment =>
      attachment.session?.bind fun session => (session.device.allocate 0).toOption.bind fun answer =>
        let shared : Session := { session with device := answer.2 }
        (shared.run 1000 (.still false)).toOption.map fun outcome =>
          (shared.device.memory.capacity, outcome.1.report?.isSome, shared.device.memory.regions,
            outcome.2.device.memory.regions)) =
      some (4096, true, [⟨0x10000000, 0, 0, 0⟩, ⟨0x10000040, 1536, 0, 0⟩, ⟨0x10000640, 512, 0, 0⟩,
        ⟨0x10000840, 256, 0, 0⟩, ⟨0x10000940, 0, 0, 0⟩], [⟨0x10000000, 0, 0, 0⟩, ⟨0x10000040, 1536, 3, 0⟩,
        ⟨0x10000640, 512, 2, 0⟩, ⟨0x10000840, 256, 0, 1⟩, ⟨0x10000940, 0, 0, 0⟩]) := by
    decide +kernel
  obtain ⟨attachment, hattach, hruns⟩ := Option.bind_eq_some_iff.mp hruns
  obtain ⟨session, hsession, hruns⟩ := Option.bind_eq_some_iff.mp hruns
  obtain ⟨⟨answer, lent⟩, hallocate, hruns⟩ := Option.bind_eq_some_iff.mp hruns
  obtain ⟨⟨ended, after⟩, hrun, hruns⟩ := Option.map_eq_some_iff.mp hruns
  simp only [Prod.mk.injEq] at hruns
  obtain ⟨hcapacity, hreport, hbefore, hafter⟩ := hruns
  obtain ⟨report, hreport⟩ := Option.isSome_iff_exists.mp hreport
  have hattach := toOption_eq_some_iff.mp hattach
  have hallocate := toOption_eq_some_iff.mp hallocate
  have hrun := toOption_eq_some_iff.mp hrun
  rw [Session.Attachment.eq_attached hsession] at hattach
  rw [Session.RunEnd.eq_finished hreport] at hrun
  have hrest : lent.Quiescent := by
    have hoff := (Session.attach_eq_ok hattach).2.1.quiescent
    simp only [Device.allocate, bind_eq_ok_iff, pure_eq_ok_iff, Prod.exists, Prod.mk.injEq] at hallocate
    obtain ⟨_, memory, _, _, rfl⟩ := hallocate
    exact hoff.of_eq rfl rfl
  have hshared : SharedHistory sharedDevice { session with device := lent } :=
    .lend (.attach hattach) (.allocate .refl hallocate) hrest
  have hsmall : lent.memory.capacity < Word32.size := Nat.lt_of_le_of_lt (Nat.le_of_eq hcapacity) (by decide)
  obtain ⟨schedule, _, _, hattributes⟩ := transfers_attributed sharedDevice_used hshared hsmall hrun
  exact ⟨_, schedule, report, after, hshared, hrun, hattributes, hbefore, hafter⟩

end BitSerial
