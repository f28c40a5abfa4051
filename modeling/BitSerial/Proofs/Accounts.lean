import Mathlib.Tactic.Ring
import BitSerial.Proofs.Reach
import BitSerial.Proofs.Storage

/-! # What finished operations leave behind

The end of an operation reaches memory and statistics. A fetch changes no byte and only counts what it read; a result
command clears its rows and counts what it wrote. Along everything that a device can reach the counts are those of the
operations that finished, and what was pushed is what the programs have no more to push.
-/

namespace BitSerial

namespace Command

/-- The bytes that a command reads from memory. -/
def bytesRead : Command → Nat
  | .fetch command => command.blocks.lhs.elim 0 FetchBlock.bytes + command.blocks.rhs.elim 0 FetchBlock.bytes
  | .execute _ => 0
  | .result _ => 0

/-- The bytes that a command writes to memory. -/
def bytesWritten : Command → Nat
  | .fetch _ => 0
  | .execute _ => 0
  | .result command => command.rhsRows * command.rowBytes

/-- Whether a command writes to an address. -/
def Writes (address : Nat) : Command → Prop
  | .fetch _ => False
  | .execute _ => False
  | .result command => ∃ row < command.rhsRows,
      command.address + row * command.strideBytes ≤ address ∧
        address < command.address + row * command.strideBytes + command.rowBytes

end Command

/-- Operations clear the bytes that they write, and leave the others as they were. -/
def Memory.ClearedBy (before : Memory) (operations : List Operation) (after : Memory) : Prop :=
  ∀ address, (∀ operation ∈ operations, ¬operation.command.Writes address) ∧ after.byte address = before.byte address ∨
    (∃ operation ∈ operations, operation.command.Writes address) ∧ after.byte address = 0

namespace Memory.ClearedBy

variable {before middle after : Memory} {operations later : List Operation}

theorem refl (memory : Memory) : memory.ClearedBy [] memory := fun _ => .inl ⟨nofun, rfl⟩

/-- Only operations that write count. -/
theorem congr (h : before.ClearedBy operations after)
    (hsame : ∀ operation address, operation.command.Writes address → (operation ∈ operations ↔ operation ∈ later)) :
    before.ClearedBy later after := by
  intro address
  rcases h address with ⟨hnone, hbyte⟩ | ⟨⟨operation, hoperation, hwrites⟩, hbyte⟩
  · refine .inl ⟨fun operation hoperation hwrites => ?_, hbyte⟩
    exact hnone operation ((hsame operation address hwrites).mpr hoperation) hwrites
  · exact .inr ⟨⟨operation, (hsame operation address hwrites).mp hoperation, hwrites⟩, hbyte⟩

theorem trans (h : before.ClearedBy operations middle) (hlater : middle.ClearedBy later after) :
    before.ClearedBy (operations ++ later) after := by
  intro address
  rcases hlater address with ⟨hlaterNone, hbyte⟩ | ⟨⟨operation, hoperation, hwrites⟩, hbyte⟩
  · rw [hbyte]
    refine (h address).imp (And.imp_left fun hnone operation hoperation => ?_) (And.imp_left ?_)
    · exact (List.mem_append.mp hoperation).elim (hnone operation) (hlaterNone operation)
    · exact fun ⟨operation, hoperation, hwrites⟩ => ⟨operation, List.mem_append_left _ hoperation, hwrites⟩
  · exact .inr ⟨⟨operation, List.mem_append_right _ hoperation, hwrites⟩, hbyte⟩

end Memory.ClearedBy

/-- The bytes that operations move, by what a command moves. -/
def moved (bytes : Command → Nat) (operations : List Operation) : Nat :=
  (operations.map fun operation => bytes operation.command).sum

theorem moved_append (bytes : Command → Nat) (operations later : List Operation) :
    moved bytes (operations ++ later) = moved bytes operations + moved bytes later := by
  simp [moved]

theorem FetchCommand.bytes_eq_ok_iff {command : FetchCommand} {bytes : Nat} :
    command.bytes = .ok bytes ↔ (Command.fetch command).bytesRead < Word64.size ∧
      bytes = (Command.fetch command).bytesRead :=
  Word64.add_eq_ok_iff

theorem ResultCommand.bytes_eq_ok_iff {command : ResultCommand} {bytes : Nat} :
    command.bytes = .ok bytes ↔ (Command.result command).bytesWritten < Word64.size ∧
      bytes = (Command.result command).bytesWritten := by
  have hrows : command.lhsRows * command.rhsRows * elementBytes = (Command.result command).bytesWritten := by
    unfold Command.bytesWritten rowBytes
    rw [Nat.mul_comm command.lhsRows, Nat.mul_assoc]
  rw [← hrows]
  exact Word64.mul_eq_ok_iff

namespace Device

/-- Clearing rows writes nothing but the rows. -/
theorem clearRows_writes {address strideBytes rowBytes count position : Nat} {memory after : Memory}
    (h : clearRows address strideBytes rowBytes count position memory = .ok after) :
    after.bytesWritten = memory.bytesWritten + count * rowBytes ∧
      (after.capacity = memory.capacity ∧ after.next = memory.next) ∧
      ∀ byte, (∀ row, position ≤ row → row < position + count → byte < address + row * strideBytes ∨
        address + row * strideBytes + rowBytes ≤ byte) → after.byte byte = memory.byte byte := by
  induction count generalizing position memory with
  | zero =>
    cases h
    exact ⟨by rw [Nat.zero_mul, Nat.add_zero], ⟨rfl, rfl⟩, fun _ _ => rfl⟩
  | succ count ih =>
    simp only [clearRows, bind_eq_ok_iff, Word64.add_eq_ok_iff, Word64.mul_eq_ok_iff, Memory.clear_eq_write] at h
    obtain ⟨_, ⟨_, rfl⟩, _, ⟨_, rfl⟩, cleared, hcleared, hrest⟩ := h
    obtain ⟨hwritten, ⟨hcapacity, hnext⟩, hbytes⟩ := ih hrest
    have hwrite := (Memory.write_eq_ok_iff.mp hcleared).2
    refine ⟨?_, ?_, fun byte houtside => ?_⟩
    · rw [hwritten, hwrite, Nat.succ_mul, List.length_replicate, Nat.add_comm (count * rowBytes), Nat.add_assoc]
    · rw [hcapacity, hnext, hwrite]
      exact ⟨rfl, rfl⟩
    · rw [hbytes byte fun row hrow hlast => houtside row (Nat.le_of_succ_le hrow) (by omega)]
      refine Memory.byte_write_of_outside hcleared ?_
      rw [List.length_replicate]
      exact houtside position (Nat.le_refl _) (by omega)

/-- Clearing rows leaves zeros in them. -/
theorem clearRows_clears {address strideBytes rowBytes count position byte : Nat} {memory after : Memory}
    (h : clearRows address strideBytes rowBytes count position memory = .ok after)
    (hbyte : memory.byte byte = 0 ∨ ∃ row, position ≤ row ∧ row < position + count ∧
      address + row * strideBytes ≤ byte ∧ byte < address + row * strideBytes + rowBytes) : after.byte byte = 0 := by
  induction count generalizing position memory with
  | zero =>
    cases h
    rcases hbyte with hzero | ⟨row, hfrom, hto, _⟩
    · exact hzero
    · omega
  | succ count ih =>
    simp only [clearRows, bind_eq_ok_iff, Word64.add_eq_ok_iff, Word64.mul_eq_ok_iff] at h
    obtain ⟨_, ⟨_, rfl⟩, _, ⟨_, rfl⟩, cleared, hcleared, hrest⟩ := h
    apply ih hrest
    rw [Memory.byte_clear hcleared]
    split
    next => exact .inl rfl
    next houtside =>
      refine hbyte.imp id fun ⟨row, hfrom, hto, hinside⟩ => ⟨row, ?_, by omega, hinside⟩
      rcases Nat.eq_or_lt_of_le hfrom with rfl | hlater
      · exact absurd hinside houtside
      · exact hlater

/-- What the end of an operation, if there is one, leaves behind. -/
structure Settled (device : Device) (finished : Option Operation) (after : Device) : Prop where
  statistics : after.statistics = { device.statistics with
    bytesRead := device.statistics.bytesRead + moved Command.bytesRead finished.toList
    bytesWritten := device.statistics.bytesWritten + moved Command.bytesWritten finished.toList }
  bytesWritten : after.memory.bytesWritten =
    device.memory.bytesWritten + moved Command.bytesWritten finished.toList
  window : after.memory.capacity = device.memory.capacity ∧ after.memory.next = device.memory.next
  clears : device.memory.ClearedBy finished.toList after.memory

variable {device after : Device}

/-- Counting the transfers of a fetch changes nothing but the counts of regions. -/
theorem countReads_frame (blocks : List FetchBlock) (memory : Memory) :
    ∃ regions, blocks.foldl (fun memory block => memory.countRead block.address block.bytes) memory =
      { memory with regions } := by
  induction blocks generalizing memory with
  | nil => exact ⟨memory.regions, rfl⟩
  | cons block rest ih =>
    obtain ⟨regions, hregions⟩ := ih (memory.countRead block.address block.bytes)
    exact ⟨regions, hregions⟩

theorem complete_settled {operation : Operation} (h : device.complete operation = .ok after) :
    device.Settled (some operation) after := by
  unfold complete at h
  cases hcommand : operation.command with
  | fetch command =>
    simp only [hcommand, bind_eq_ok_iff, pure_eq_ok_iff, FetchCommand.bytes_eq_ok_iff, Word64.add_eq_ok_iff] at h
    obtain ⟨_, ⟨_, rfl⟩, _, ⟨_, rfl⟩, rfl⟩ := h
    obtain ⟨regions, hregions⟩ := countReads_frame command.transferList device.memory
    rw [hregions]
    refine ⟨?_, ?_, ⟨rfl, rfl⟩, fun address => .inl ⟨fun other hother => ?_, rfl⟩⟩
    · simp [moved, hcommand, Command.bytesWritten]
    · simp [moved, hcommand, Command.bytesWritten]
    · rw [List.mem_singleton.mp hother, hcommand]
      exact not_false
  | execute command =>
    simp only [hcommand] at h
    cases h
    refine ⟨?_, ?_, ⟨rfl, rfl⟩, fun address => .inl ⟨fun other hother => ?_, rfl⟩⟩
    · simp [moved, hcommand, Command.bytesRead, Command.bytesWritten]
    · simp [moved, hcommand, Command.bytesWritten]
    · rw [List.mem_singleton.mp hother, hcommand]
      exact not_false
  | result command =>
    simp only [hcommand, bind_eq_ok_iff, pure_eq_ok_iff, ResultCommand.bytes_eq_ok_iff, Word64.add_eq_ok_iff] at h
    obtain ⟨memory, hclear, _, ⟨_, rfl⟩, _, ⟨_, rfl⟩, rfl⟩ := h
    obtain ⟨hwritten, hwindow, hbytes⟩ := clearRows_writes hclear
    refine ⟨?_, ?_, hwindow, fun address => ?_⟩
    · simp [moved, hcommand, Command.bytesRead]
    · change memory.bytesWritten = _
      simpa [moved, hcommand, Command.bytesWritten] using hwritten
    · by_cases hwrites : operation.command.Writes address
      · refine .inr ⟨⟨operation, List.mem_singleton_self _, hwrites⟩, ?_⟩
        rw [hcommand] at hwrites
        obtain ⟨row, hrow, hinside⟩ := hwrites
        have hzero : memory.byte address = 0 :=
          clearRows_clears hclear (.inr ⟨row, Nat.zero_le _, by omega, hinside⟩)
        exact hzero
      · refine .inl ⟨fun other hother => List.mem_singleton.mp hother ▸ hwrites, hbytes address fun row _ hrow => ?_⟩
        rw [Nat.zero_add] at hrow
        by_contra hinside
        rw [not_or, Nat.not_lt, Nat.not_le] at hinside
        exact hwrites (hcommand ▸ ⟨row, hrow, hinside⟩)

theorem settle_settled {finished : Option Operation} (h : device.settle finished = .ok after) :
    device.Settled finished after := by
  cases finished with
  | none =>
    cases h
    exact ⟨rfl, rfl, ⟨rfl, rfl⟩, .refl _⟩
  | some operation => exact complete_settled h

/-- A turn leaves behind what the operation that finishes in it leaves behind. -/
theorem Turn.settled {stage : Stage} (h : device.Turn stage after) : device.Settled (device.finishing? stage) after := by
  cases h with
  | off hoff =>
    simp only [finishing?, hoff]
    exact ⟨rfl, rfl, ⟨rfl, rfl⟩, .refl _⟩
  | @on moved handoff _ _ _ hsettle =>
    obtain ⟨hstatistics, hwritten, hwindow, hclears⟩ := settle_settled hsettle
    exact ⟨hstatistics, hwritten, hwindow, hclears⟩

theorem Turn.ticks {stage : Stage} (h : device.Turn stage after) :
    after.statistics.ticks = device.statistics.ticks := by
  rw [h.settled.statistics]

/-- Every cycle is among those that the statistics say. -/
theorem tick_ticks (htick : device.tick = .ok after) : after.statistics.ticks = device.statistics.ticks + 1 := by
  obtain ⟨fetched, executed, hfetch, hexecute, hresult⟩ := device.tick_eq_ok_iff.mp htick
  rw [(tickStage_turn _ hresult).ticks, (tickStage_turn _ hexecute).ticks, (tickStage_turn _ hfetch).ticks]
  rfl

end Device

/-- The tokens that are left to push. -/
def Backlog.tokenCount (left : Backlog) : Nat :=
  (left.tokens.get .fetch).length + (left.tokens.get .execute).length + (left.tokens.get .result).length

/-- The commands that are left to push. -/
def Backlog.commandCount (left : Backlog) : Nat :=
  (left.commands.get .fetch).length + (left.commands.get .execute).length + (left.commands.get .result).length

theorem Backlog.tokenCount_withTokens {left : Backlog} {stage : Stage} {token : Token} {rest : List Token}
    (h : left.tokens.get stage = token :: rest) : (left.withTokens rest stage).tokenCount + 1 = left.tokenCount := by
  unfold tokenCount withTokens
  cases stage <;> simp_all [PerStage.get, PerStage.set] <;> omega

theorem Backlog.commandCount_withCommands {left : Backlog} {stage : Stage} {command : Command} {rest : List Command}
    (h : left.commands.get stage = command :: rest) :
    (left.withCommands rest stage).commandCount + 1 = left.commandCount := by
  unfold commandCount withCommands
  cases stage <;> simp_all [PerStage.get, PerStage.set] <;> omega

/-- How the counts of a device follow from what happened to it and from what is left to push. -/
structure Ledger (programs : Stage → List Operation) (start : Recorded) (left : Backlog) (recorded : Recorded) :
    Prop where
  bytesRead : recorded.device.statistics.bytesRead + moved Command.bytesRead (finishedOf .fetch start.trail) =
    start.device.statistics.bytesRead + moved Command.bytesRead (finishedOf .fetch recorded.trail)
  bytesWritten : recorded.device.statistics.bytesWritten +
      moved Command.bytesWritten (finishedOf .result start.trail) =
    start.device.statistics.bytesWritten + moved Command.bytesWritten (finishedOf .result recorded.trail)
  memoryWritten : recorded.device.memory.bytesWritten + moved Command.bytesWritten (finishedOf .result start.trail) =
    start.device.memory.bytesWritten + moved Command.bytesWritten (finishedOf .result recorded.trail)
  tokensPushed : recorded.device.statistics.tokensPushed + left.tokenCount =
    start.device.statistics.tokensPushed + (Backlog.ofPrograms programs).tokenCount
  commandsPushed : recorded.device.statistics.commandsPushed + left.commandCount =
    start.device.statistics.commandsPushed + (Backlog.ofPrograms programs).commandCount
  stages : ∀ stage, (recorded.device.stages.get stage).overflows = (start.device.stages.get stage).overflows ∧
    (recorded.device.stages.get stage).depth = (start.device.stages.get stage).depth

/-- The operation that finishes in a turn of another stage moves nothing of this kind. -/
theorem moved_finishing {device : Device} {stage turned : Stage} {bytes : Command → Nat}
    (hstage : ∀ operation, device.finishing? turned = some operation → operation.command.stage = turned)
    (hbytes : ∀ command : Command, command.stage ≠ stage → bytes command = 0) :
    moved bytes (device.finishing? turned).toList = moved bytes (finishedOf stage [.turn turned device]) := by
  rw [finishedOf_turn]
  split
  next hturned => rw [hturned]
  next hturned =>
    cases hfinishing : device.finishing? turned with
    | none => rfl
    | some operation =>
      have hzero := hbytes operation.command (by rw [hstage operation hfinishing]; exact hturned)
      simp [moved, hzero]

theorem Command.bytesRead_of_ne {command : Command} (h : command.stage ≠ .fetch) : command.bytesRead = 0 := by
  cases command with
  | fetch command => exact absurd rfl h
  | execute command => rfl
  | result command => rfl

theorem Command.bytesWritten_of_ne {command : Command} (h : command.stage ≠ .result) : command.bytesWritten = 0 := by
  cases command with
  | fetch command => rfl
  | execute command => rfl
  | result command => exact absurd rfl h

/-- Along everything that a device can reach, the books are kept. -/
theorem Reached.ledger {programs : Stage → List Operation} {start recorded : Recorded} {left : Backlog}
    (hstaged : Staged programs) (hrest : start.device.Quiescent) (h : Reached programs start left recorded) :
    Ledger programs start left recorded := by
  induction h with
  | start => exact ⟨rfl, rfl, rfl, rfl, rfl, fun _ => ⟨rfl, rfl⟩⟩
  | count _ ih => exact ⟨ih.bytesRead, ih.bytesWritten, ih.memoryWritten, ih.tokensPushed, ih.commandsPushed, ih.stages⟩
  | @turn left recorded after turned h hturn ih =>
    obtain ⟨hdevice, htrail⟩ := (Recorded.turn_eq_ok_iff _).mp hturn
    have hturn := Device.tickStage_turn _ hdevice
    obtain ⟨hstatistics, hwritten, _, _⟩ := hturn.settled
    have hstage : ∀ operation, recorded.device.finishing? turned = some operation →
        operation.command.stage = turned := fun operation hfinishing =>
      (h.flow hstaged hrest).operation_staged hstaged (Device.finishing?_operation _ hfinishing)
    -- only the operation that finishes in the turn moves bytes, and it is one of the stage whose turn it is
    have hread := moved_finishing hstage (fun _ => Command.bytesRead_of_ne)
    have hwrite := moved_finishing hstage (fun _ => Command.bytesWritten_of_ne)
    rw [hread, hwrite] at hstatistics
    rw [hwrite] at hwritten
    constructor
    case bytesRead =>
      rw [hstatistics, htrail, finishedOf_append, moved_append, Nat.add_right_comm, ih.bytesRead, Nat.add_assoc]
    case bytesWritten =>
      rw [hstatistics, htrail, finishedOf_append, moved_append, Nat.add_right_comm, ih.bytesWritten, Nat.add_assoc]
    case memoryWritten =>
      rw [hwritten, htrail, finishedOf_append, moved_append, Nat.add_right_comm, ih.memoryWritten, Nat.add_assoc]
    case tokensPushed => rw [hstatistics]; exact ih.tokensPushed
    case commandsPushed => rw [hstatistics]; exact ih.commandsPushed
    case stages =>
      intro stage
      rw [(hturn.frame stage).1, (hturn.frame stage).2.2]
      exact ih.stages stage
  | @pushToken left recorded stage token rest h hnext hroom ih =>
    have hcount := Backlog.tokenCount_withTokens hnext
    have htokens := ih.tokensPushed
    refine ⟨ih.bytesRead, ih.bytesWritten, ih.memoryWritten, ?_, ih.commandsPushed, fun other => ?_⟩
    · change recorded.device.statistics.tokensPushed + 1 + _ = _
      omega
    · have hframe := @Device.accept_frame recorded.device (.token stage token) hroom other
      rw [hframe.1, hframe.2.2]
      exact ih.stages other
  | @pushCommand left recorded stage command rest h hnext hroom ih =>
    have hcount := Backlog.commandCount_withCommands hnext
    have hcommands := ih.commandsPushed
    have hroom : recorded.device.full (.command command.stage) = false := by
      rw [(h.flow hstaged hrest).stage_of_next_command hstaged hnext]
      exact hroom
    refine ⟨ih.bytesRead, ih.bytesWritten, ih.memoryWritten, ih.tokensPushed, ?_, fun other => ?_⟩
    · change recorded.device.statistics.commandsPushed + 1 + _ = _
      omega
    · have hframe := @Device.accept_frame recorded.device (.command command) hroom other
      rw [hframe.1, hframe.2.2]
      exact ih.stages other
  | @stall _ recorded _ stage stalled ih =>
    refine ⟨ih.bytesRead, ih.bytesWritten, ih.memoryWritten, ih.tokensPushed, ih.commandsPushed, ?_⟩
    exact recorded.device.updateStage_keeps (fun other controller =>
      controller.overflows = (start.device.stages.get other).overflows ∧
        controller.depth = (start.device.stages.get other).depth) (fun _ h => h) ih.stages
  | enable _ _ ih => exact ⟨ih.bytesRead, ih.bytesWritten, ih.memoryWritten, ih.tokensPushed, ih.commandsPushed, ih.stages⟩
  | @switch _ recorded _ counting ih =>
    obtain ⟨_, _, hmemory, hstatistics⟩ := recorded.device.switch_frame counting
    constructor
    case bytesRead => rw [hstatistics]; exact ih.bytesRead
    case bytesWritten => rw [hstatistics]; exact ih.bytesWritten
    case memoryWritten => rw [hmemory]; exact ih.memoryWritten
    case tokensPushed => rw [hstatistics]; exact ih.tokensPushed
    case commandsPushed => rw [hstatistics]; exact ih.commandsPushed
    case stages =>
      exact recorded.device.switch_keeps (fun stage controller =>
        controller.overflows = (start.device.stages.get stage).overflows ∧
          controller.depth = (start.device.stages.get stage).depth) (fun _ _ h => h) ih.stages counting

theorem Command.stage_of_writes {command : Command} {address : Nat} (h : command.Writes address) :
    command.stage = .result := by
  cases command with
  | fetch command => exact h.elim
  | execute command => exact h.elim
  | result command => rfl

/-- Memory is cleared by the result instructions that finished. -/
theorem Reached.clears {programs : Stage → List Operation} {start recorded : Recorded} {left : Backlog}
    (hstaged : Staged programs) (hrest : start.device.Quiescent) (h : Reached programs start left recorded) :
    ∃ done, finishedOf .result recorded.trail = finishedOf .result start.trail ++ done ∧
      start.device.memory.ClearedBy done recorded.device.memory := by
  induction h with
  | start => exact ⟨[], (List.append_nil _).symm, .refl _⟩
  | count _ ih => exact ih
  | @turn left recorded after turned h hturn ih =>
    obtain ⟨done, hdone, hclears⟩ := ih
    obtain ⟨hdevice, htrail⟩ := (Recorded.turn_eq_ok_iff _).mp hturn
    have hstage {operation : Operation} (hfinishing : recorded.device.finishing? turned = some operation) :
        operation.command.stage = turned :=
      (h.flow hstaged hrest).operation_staged hstaged (Device.finishing?_operation _ hfinishing)
    refine ⟨done ++ finishedOf .result [.turn turned recorded.device], ?_, ?_⟩
    · rw [htrail, finishedOf_append, hdone, List.append_assoc]
    · apply (hclears.trans (Device.tickStage_turn _ hdevice).settled.clears).congr
      intro operation address hwrites
      -- an operation that writes finishes in a turn of the result stage
      rw [List.mem_append, List.mem_append, finishedOf_turn]
      split
      next hturned => rw [hturned]
      next hturned =>
        refine or_congr_right ⟨fun hmem => ?_, nofun⟩
        exact absurd ((hstage (Option.mem_toList.mp hmem)).symm.trans (Command.stage_of_writes hwrites)) hturned
  | pushToken _ _ _ ih => exact ih
  | pushCommand _ _ _ ih => exact ih
  | stall _ _ _ ih => exact ih
  | enable _ _ ih => exact ih
  | @switch _ recorded _ counting ih =>
    rw [(recorded.device.switch_frame counting).2.2.1]
    exact ih

/-- The result instructions that clear memory are the first ones of the program. -/
theorem Reached.clears_program {programs : Stage → List Operation} {start recorded : Recorded} {left : Backlog}
    (hstaged : Staged programs) (hrest : start.device.Quiescent) (h : Reached programs start left recorded) :
    ∃ done, finishedOf .result recorded.trail = finishedOf .result start.trail ++ done ∧ done <+: programs .result ∧
      start.device.memory.ClearedBy done recorded.device.memory := by
  obtain ⟨done, hdone, hclears⟩ := h.clears hstaged hrest
  have htake := List.append_cancel_left (hdone.symm.trans (h.finished hstaged hrest .result))
  exact ⟨done, hdone, htake ▸ List.take_prefix _ _, hclears⟩

/-- A byte that no result instruction writes stays as it is. -/
theorem Reached.byte {programs : Stage → List Operation} {start recorded : Recorded} {left : Backlog}
    (hstaged : Staged programs) (hrest : start.device.Quiescent) (h : Reached programs start left recorded)
    {address : Nat} (houtside : ∀ operation ∈ programs .result, ¬operation.command.Writes address) :
    recorded.device.memory.byte address = start.device.memory.byte address := by
  obtain ⟨done, _, hdoneFirst, hclears⟩ := h.clears_program hstaged hrest
  rcases hclears address with ⟨_, hbyte⟩ | ⟨⟨operation, hoperation, hwrites⟩, _⟩
  · exact hbyte
  · exact absurd hwrites (houtside operation (hdoneFirst.subset hoperation))

end BitSerial
