import Mathlib.Tactic.Ring
import BitSerial.Proofs.Accounts
import BitSerial.Proofs.Offsets

/-! # The traffic of a schedule

A schedule adds up what its instructions move as it writes them. The sum of the results is the whole padded result,
because the row tiles of both operands cover their rows.
-/

namespace BitSerial

namespace Chain

variable {α β : Type} {link : Nat → β → α → β → Prop} {position : Nat} {state last : β} {list : List α}

/-- What every link adds, a chain adds up. -/
theorem total (h : Chain link position state list last) (view : β → Nat) (count : α → Nat)
    (hlink : ∀ position state first next, link position state first next → view next = view state + count first) :
    view last = view state + (list.map count).sum := by
  induction h with
  | nil => rfl
  | cons hfirst _ ih => rw [ih, hlink _ _ _ _ hfirst, List.map_cons, List.sum_cons, Nat.add_assoc]

/-- What every link adds at most, a chain adds at most once for each of its entries. -/
theorem total_le (h : Chain link position state list last) (view : β → Nat) (most : Nat)
    (hlink : ∀ position state first next, link position state first next → view next ≤ view state + most) :
    view last ≤ view state + list.length * most := by
  induction h with
  | nil => exact Nat.le_add_right _ _
  | cons hfirst _ ih =>
    have hadds := hlink _ _ _ _ hfirst
    rw [List.length_cons, Nat.succ_mul]
    omega

end Chain

namespace Layout.ScheduleWritten

variable {layout : Layout} {schedule : Schedule} {start last : Residency} {bandPairs : Nat} {steps : List Step}
  {results : List (Instruction ResultCommand)}

/-- The bytes to be fetched are those that the fetch instructions read. -/
theorem fetchBytes_eq (h : layout.ScheduleWritten schedule start last bandPairs steps results) :
    schedule.traffic.fetchBytes = moved Command.bytesRead (schedule.program .fetch) := by
  have htotal := h.steps_chain.total (·.2) (fun step => (Command.fetch step.fetch.command).bytesRead) ?_
  · change schedule.traffic.fetchBytes = 0 + _ at htotal
    rw [htotal, Nat.zero_add, moved, Schedule.program, h.fetch, List.map_map, List.map_map]
    rfl
  · rintro position before step after ⟨addresses, blocks, middle, bytes, hwritten, hafter, rfl⟩
    rw [hafter, (FetchCommand.bytes_eq_ok_iff.mp hwritten.bytes).2]
    rfl

/-- Announcing the bytes of a run moves nothing. -/
theorem moved_result_eq (h : layout.ScheduleWritten schedule start last bandPairs steps results) :
    moved Command.bytesWritten (schedule.program .result) =
      (results.map fun result => (Command.result result.command).bytesWritten).sum := by
  have hmap := congrArg (List.map fun instruction : Instruction ResultCommand =>
    (Command.result instruction.command).bytesWritten) (announceTotal_unannounced h.result)
  rw [List.map_map, List.map_map] at hmap
  rw [moved, Schedule.program, List.map_map]
  exact congrArg List.sum hmap

/-- The bytes to be written are those that the result instructions write. -/
theorem writeBytes_eq (h : layout.ScheduleWritten schedule start last bandPairs steps results) :
    schedule.traffic.writeBytes = moved Command.bytesWritten (schedule.program .result) := by
  have htotal := h.results_chain.total id (fun result => (Command.result result.command).bytesWritten) ?_
  · rw [h.moved_result_eq]
    simpa using htotal
  · rintro output before result after ⟨bytes, _, _, hbytes, hafter, _⟩
    rw [id, hafter, (ResultCommand.bytes_eq_ok_iff.mp hbytes).2]
    rfl

/-- Every result instruction writes one tile. -/
theorem writeBytes_tiles (h : layout.ScheduleWritten schedule start last bandPairs steps results) :
    schedule.traffic.writeBytes = layout.nest.outputCount *
      (Word32.low layout.plan.rhs.tileRows * (Word32.low layout.plan.lhs.tileRows * elementBytes)) := by
  have htotal := h.results_chain.total id
    (fun _ => Word32.low layout.plan.rhs.tileRows * (Word32.low layout.plan.lhs.tileRows * elementBytes)) ?_
  · rw [List.map_const', List.sum_replicate_nat, h.results_length] at htotal
    simpa using htotal
  · rintro output before result after ⟨bytes, hcommand, _, hbytes, hafter, _⟩
    rw [id, hafter, (ResultCommand.bytes_eq_ok_iff.mp hbytes).2]
    rw [resultCommand_eq hcommand]
    rfl

end Layout.ScheduleWritten

/-- The row tiles of a product that is small enough for its commands cover the padded result. -/
theorem Layout.ScheduleWritten.writeBytes_eq_resultBytes {layout : Layout} {schedule : Schedule}
    {start last : Residency} {bandPairs bytes : Nat} {steps : List Step} {results : List (Instruction ResultCommand)}
    (h : layout.ScheduleWritten schedule start last bandPairs steps results)
    (hcuts : layout.plan.Cuts layout.geometry layout.gemm) (hbytes : layout.gemm.resultBytes = .ok bytes)
    (hsmall : bytes < Word32.size) : schedule.traffic.writeBytes = bytes := by
  have hlhs := (hcuts.tiling .lhs).rowTiles
  have hrhs := (hcuts.tiling .rhs).rowTiles
  have hlhsLow := hcuts.low_tileRows hbytes hsmall .lhs
  have hrhsLow := hcuts.low_tileRows hbytes hsmall .rhs
  simp only [Gemm.operand, TilePlan.operand] at hlhs hrhs hlhsLow hrhsLow
  rw [h.writeBytes_tiles, hlhsLow, hrhsLow, Gemm.resultBytes_eq hbytes, ← hlhs, ← hrhs]
  change layout.plan.lhs.rowTiles * layout.plan.rhs.rowTiles * _ = _
  ring

/-- The rows of an output tile lie in the padded result. -/
theorem Layout.ScheduleWritten.result_rows_le {layout : Layout} {schedule : Schedule} {start last : Residency}
    {bandPairs bytes : Nat} {steps : List Step} {results : List (Instruction ResultCommand)}
    (h : layout.ScheduleWritten schedule start last bandPairs steps results)
    (hcuts : layout.plan.Cuts layout.geometry layout.gemm) (hbytes : layout.gemm.resultBytes = .ok bytes)
    {operation : Operation} (hoperation : operation ∈ schedule.program .result) {command : ResultCommand}
    (hcommand : operation.command = .result command) :
    layout.addresses.result ≤ command.address ∧ ∀ row < command.rhsRows,
      command.address + row * command.strideBytes + command.rowBytes ≤ layout.addresses.result + bytes := by
  obtain rfl := Gemm.resultBytes_eq hbytes
  obtain ⟨output, hat⟩ := List.getElem?_of_mem hoperation
  obtain ⟨instruction, hinstruction, rfl⟩ := Schedule.program_result_getElem? hat
  have houtput : output < layout.nest.outputCount := by
    rw [← h.result_length]
    exact (List.getElem?_eq_some_iff.mp hinstruction).1
  obtain ⟨_, hinstructionCommand, _⟩ := h.result_eq hinstruction
  cases hcommand
  unfold ResultCommand.rowBytes
  rw [hinstructionCommand]
  refine ⟨Nat.le_add_right _ _, fun row hrow => ?_⟩
  obtain ⟨hlhsTile, hrhsTile⟩ := LoopNest.rowTile_lt houtput
  -- the last column of the tile is in the row, and the last row of the tile is in the result
  have hcols : layout.nest.lhsTile output * layout.plan.lhs.tileRows + Word32.low layout.plan.lhs.tileRows ≤
      layout.gemm.lhs.paddedRows :=
    Nat.le_trans (Nat.add_le_add_left (Word32.low_le _) _) (hcuts.tile_end .lhs hlhsTile)
  have hrows : layout.nest.rhsTile output * layout.plan.rhs.tileRows + row + 1 ≤ layout.gemm.rhs.paddedRows :=
    Nat.le_trans (Nat.add_le_add_left (Nat.lt_of_lt_of_le hrow (Word32.low_le _)) _) (hcuts.tile_end .rhs hrhsTile)
  have hend := Nat.mul_le_mul_right layout.gemm.lhs.paddedRows hrows
  rw [Nat.succ_mul, Nat.add_mul] at hend
  rw [Nat.mul_comm layout.gemm.lhs.paddedRows layout.gemm.rhs.paddedRows, ← Nat.mul_assoc row]
  unfold elementBytes
  dsimp only
  omega

/-- Whatever a result instruction writes, lies in the padded result. -/
theorem Layout.ScheduleWritten.writes_within {layout : Layout} {schedule : Schedule} {start last : Residency}
    {bandPairs bytes : Nat} {steps : List Step} {results : List (Instruction ResultCommand)}
    (h : layout.ScheduleWritten schedule start last bandPairs steps results)
    (hcuts : layout.plan.Cuts layout.geometry layout.gemm) (hbytes : layout.gemm.resultBytes = .ok bytes)
    {operation : Operation} (hoperation : operation ∈ schedule.program .result) {address : Nat}
    (hwrites : operation.command.Writes address) :
    layout.addresses.result ≤ address ∧ address < layout.addresses.result + bytes := by
  cases hcommand : operation.command with
  | fetch command => rw [hcommand] at hwrites; exact hwrites.elim
  | execute command => rw [hcommand] at hwrites; exact hwrites.elim
  | result command =>
    rw [hcommand] at hwrites
    obtain ⟨row, hrow, hfrom, hto⟩ := hwrites
    obtain ⟨hbegin, hrows⟩ := h.result_rows_le hcuts hbytes hoperation hcommand
    have hend := hrows row hrow
    omega

end BitSerial
