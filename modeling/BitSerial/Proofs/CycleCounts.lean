import Mathlib.Algebra.Order.Floor.Div
import Mathlib.Algebra.BigOperators.Ring.List
import BitSerial.Proofs.Efficiency
import BitSerial.Proofs.History
import BitSerial.Proofs.Partition
import BitSerial.Proofs.Tally

/-! # Cycles and work

The counters of a run can be told from its schedule. The fetch and the result stage work as long as their channels take,
and at least one cycle for every instruction. The execute stage works as long as the array takes for the operations of
the padded product, because the tiles of both operands cover the rows and the bands cover the columns. So a report gives
its efficiency as one.
-/

namespace BitSerial

/-- The cycles that a channel of a number of bits takes for a number of bytes. No work takes less than a cycle. -/
def channelCycles (width bytes : Nat) : Nat := max 1 (bytes ⌈/⌉ (width / 8))

/-- What the counters of a run say, by the schedule that ran. -/
structure Report.Accounted (report : Report) (schedule : Schedule) : Prop where
  total : ∀ stage, (report.counters.stages.get stage).total + 2 = report.counters.cycles
  send : ∀ stage, (report.counters.stages.get stage).send = schedule.counts.get stage
  fetch : report.counters.runCycles .fetch = (schedule.fetch.map fun instruction =>
    channelCycles report.geometry.readWidth (Command.fetch instruction.command).bytesRead).sum
  result : report.counters.runCycles .result = (schedule.result.map fun instruction =>
    channelCycles report.geometry.writeWidth (Command.result instruction.command).bytesWritten).sum
  execute : report.counters.runCycles .execute * report.geometry.exactPeak = report.gemm.exactOperations
  efficiency : report.stageEfficiency .execute = 1.0
  read : report.traffic.fetchBytes * 8 ≤ report.counters.runCycles .fetch * report.geometry.readWidth
  written : report.traffic.writeBytes * 8 ≤ report.counters.runCycles .result * report.geometry.writeWidth

/-- A channel whose width is a number of whole bytes. -/
structure WholeBytes (width : Nat) : Prop where
  pos : 0 < width / 8
  eq : width / 8 * 8 = width

theorem Geometry.channels {geometry : Geometry} (h : geometry.check = .ok ()) :
    WholeBytes geometry.readWidth ∧ WholeBytes geometry.writeWidth := by
  simp only [Geometry.check, bind_eq_ok_iff, demandCapability_eq_ok_iff] at h
  obtain ⟨_, _, _, ⟨hread, hwrite⟩, _, _, _, ⟨_, hreadBytes, hwriteBytes⟩, _⟩ := h
  exact ⟨⟨by omega, by omega⟩, ⟨by omega, by omega⟩⟩

theorem Geometry.readWidth_le {geometry : Geometry} (h : geometry.check = .ok ()) :
    geometry.readWidth ≤ geometry.commonDim := by
  simp only [Geometry.check, bind_eq_ok_iff, demandCapability_eq_ok_iff] at h
  obtain ⟨_, _, _, _, _, ⟨hnarrow, _⟩, _⟩ := h
  exact hnarrow

namespace WholeBytes

variable {width : Nat}

/-- The cycles of a channel are enough for its bytes. -/
theorem bytes_le (h : WholeBytes width) (bytes : Nat) : bytes * 8 ≤ channelCycles width bytes * width := by
  have hceil : bytes ≤ width / 8 * (bytes ⌈/⌉ (width / 8)) := le_smul_ceilDiv h.pos
  calc bytes * 8 ≤ width / 8 * (bytes ⌈/⌉ (width / 8)) * 8 := Nat.mul_le_mul_right 8 hceil
    _ = (bytes ⌈/⌉ (width / 8)) * (width / 8 * 8) := by ring
    _ = (bytes ⌈/⌉ (width / 8)) * width := by rw [h.eq]
    _ ≤ channelCycles width bytes * width := Nat.mul_le_mul_right _ (Nat.le_max_right _ _)

theorem sum_bytes_le {α : Type} (h : WholeBytes width) (bytes : α → Nat) (list : List α) :
    (list.map bytes).sum * 8 ≤ (list.map fun entry => channelCycles width (bytes entry)).sum * width := by
  rw [← List.sum_map_mul_right, ← List.sum_map_mul_right]
  exact List.sum_le_sum fun entry _ => h.bytes_le (bytes entry)

/-- The cycles that a device computes for a transfer. -/
theorem channelCycles_eq (h : WholeBytes width) (bytes : Nat) :
    max ((bytes + max (width / 8) 1 - 1) / max (width / 8) 1) 1 = channelCycles width bytes := by
  rw [Nat.max_eq_left h.pos, channelCycles, Nat.ceilDiv_eq_add_pred_div, Nat.max_comm]

/-- A stage that moves bytes works as long as its channel takes. -/
theorem sum_workCycles {α : Type} (h : WholeBytes width) {duration : Operation → Except Fault Nat}
    {instructions : List α} {operation : α → Operation} {bytes : α → Nat}
    (hduration : ∀ instruction ∈ instructions, duration (operation instruction) =
      .ok ((bytes instruction + max (width / 8) 1 - 1) / max (width / 8) 1)) :
    ((instructions.map operation).map (workCycles duration)).sum =
      (instructions.map fun instruction => channelCycles width (bytes instruction)).sum := by
  rw [List.map_map]
  apply congrArg List.sum
  apply List.map_congr_left
  intro instruction hinstruction
  exact (workCycles_eq (hduration instruction hinstruction)).trans (h.channelCycles_eq _)

end WholeBytes

section Channels

variable {device : Device} {schedule : Schedule}

/-- The fetch stage works as long as the read channel takes. -/
theorem fetchCycles_eq (hwidth : WholeBytes device.geometry.readWidth)
    (hfits : ∀ operation ∈ schedule.program .fetch, operation.command.Fits) :
    ((schedule.program .fetch).map (workCycles device.duration)).sum = (schedule.fetch.map fun instruction =>
      channelCycles device.geometry.readWidth (Command.fetch instruction.command).bytesRead).sum := by
  refine hwidth.sum_workCycles fun instruction hinstruction => ?_
  have hmem : instruction.map Command.fetch ∈ schedule.program .fetch := List.mem_map_of_mem hinstruction
  exact bind_eq_ok_iff.mpr ⟨_, FetchCommand.bytes_eq_ok_iff.mpr ⟨hfits _ hmem, rfl⟩, rfl⟩

/-- The result stage works as long as the write channel takes. -/
theorem resultCycles_eq (hwidth : WholeBytes device.geometry.writeWidth)
    (hfits : ∀ operation ∈ schedule.program .result, operation.command.Fits) :
    ((schedule.program .result).map (workCycles device.duration)).sum = (schedule.result.map fun instruction =>
      channelCycles device.geometry.writeWidth (Command.result instruction.command).bytesWritten).sum := by
  refine hwidth.sum_workCycles fun instruction hinstruction => ?_
  have hmem : instruction.map Command.result ∈ schedule.program .result := List.mem_map_of_mem hinstruction
  exact bind_eq_ok_iff.mpr ⟨_, ResultCommand.bytes_eq_ok_iff.mpr ⟨(hfits _ hmem).1, rfl⟩, rfl⟩

end Channels

namespace TilePlan.Cuts

variable {plan : TilePlan} {geometry : Geometry} {gemm : Gemm}

/-- All steps together take the array as long as the operations of the padded product do. -/
theorem operations_eq (h : plan.Cuts geometry gemm)
    (hbands : ∀ operand, (plan.operand operand).tileRows = (plan.operand operand).tileBands * geometry.dim operand) :
    (plan.loopNest gemm).outputCount * (plan.loopNest gemm).stepCount *
        (plan.lhs.tileBands * plan.rhs.tileBands * plan.bandStripes) * geometry.exactPeak = gemm.exactOperations := by
  have hlhs : plan.lhs.rowTiles * (plan.lhs.tileBands * geometry.lhsDim) = gemm.lhs.paddedRows :=
    (congrArg (plan.lhs.rowTiles * ·) (hbands .lhs)).symm.trans (h.tiling .lhs).rowTiles
  have hrhs : plan.rhs.rowTiles * (plan.rhs.tileBands * geometry.rhsDim) = gemm.rhs.paddedRows :=
    (congrArg (plan.rhs.rowTiles * ·) (hbands .rhs)).symm.trans (h.tiling .rhs).rowTiles
  have hcols : plan.commonTiles * plan.bandStripes * geometry.commonDim = gemm.lhs.paddedCols := by
    rw [h.commonTiles, h.stripes]
  unfold Gemm.exactOperations Geometry.exactPeak LoopNest.outputCount LoopNest.stepCount TilePlan.loopNest
  dsimp only
  rw [← hlhs, ← hrhs, ← hcols]
  ring

end TilePlan.Cuts

section Execute

variable {layout : Layout} {schedule : Schedule} {start last : Residency} {bandPairs : Nat} {steps : List Layout.Step}
  {results : List (Instruction ResultCommand)}

/-- Every step takes the array the same time. -/
theorem Layout.ScheduleWritten.executeCycles_eq (h : layout.ScheduleWritten schedule start last bandPairs steps results)
    (device : Device) :
    ((schedule.program .execute).map (workCycles device.duration)).sum =
      layout.nest.outputCount * layout.nest.stepCount * max (bandPairs * Word32.low layout.plan.bandStripes) 1 := by
  have hsame : ∀ cycles ∈ (schedule.program .execute).map (workCycles device.duration),
      cycles = max (bandPairs * Word32.low layout.plan.bandStripes) 1 := by
    intro cycles hcycles
    obtain ⟨operation, hoperation, rfl⟩ := List.mem_map.mp hcycles
    obtain ⟨position, hat⟩ := List.getElem?_of_mem hoperation
    obtain ⟨instruction, hinstruction, rfl⟩ := Schedule.program_execute_getElem? hat
    rw [h.execute, List.getElem?_map, Option.map_eq_some_iff] at hinstruction
    obtain ⟨step, hstep, rfl⟩ := hinstruction
    obtain ⟨_, _, _, _, _, _, _, _, rfl⟩ := h.steps_chain.link_getElem? hstep
    rfl
  rw [List.sum_eq_card_nsmul _ _ hsame, List.length_map, schedule.program_execute_length, h.execute, List.length_map,
    h.steps_length, smul_eq_mul]

/-- The execute stage works as long as the array takes for the operations of the padded product. -/
theorem Layout.schedule_operations (hplan : TilePlan.ofGemm layout.geometry layout.gemm = .ok layout.plan)
    (hsmall : ∃ bytes, layout.gemm.lhs.bytes = .ok bytes ∧ bytes < Word32.size)
    (hresult : ∃ bytes, layout.gemm.resultBytes = .ok bytes ∧ bytes < Word32.size)
    (h : layout.schedule start = .ok (schedule, last)) (device : Device) :
    ((schedule.program .execute).map (workCycles device.duration)).sum * layout.geometry.exactPeak =
      layout.gemm.exactOperations := by
  obtain ⟨_, pairs, steps, results, hpairs, hwritten⟩ := schedule_written_for h
  obtain ⟨_, rfl⟩ := Word64.mul_eq_ok_iff.mp hpairs
  obtain ⟨bytes, hbytes, hbound⟩ := hsmall
  obtain ⟨resultBytes, hresultBytes, hresultBound⟩ := hresult
  have hcuts := TilePlan.ofGemm_cuts hplan
  have hbands := TilePlan.ofGemm_bands hplan
  have hpairsLow := Word32.low_eq_self (Nat.lt_of_le_of_lt (hcuts.bandPairs_le hbands hresultBytes) hresultBound)
  have hstripesLow := Word32.low_eq_self (Nat.lt_of_le_of_lt (hcuts.bandStripes_le hbytes) hbound)
  have hpositive : 1 ≤ layout.plan.lhs.tileBands * layout.plan.rhs.tileBands * layout.plan.bandStripes := by
    have hband (operand : Operand) : 0 < (layout.plan.operand operand).tileBands := by
      have hrows := (hcuts.tiling operand).tileRows_pos
      rw [hbands operand] at hrows
      exact Nat.pos_of_mul_pos_right hrows
    exact Nat.mul_pos (Nat.mul_pos (hband .lhs) (hband .rhs)) hcuts.bandStripes_pos
  rw [hwritten.executeCycles_eq, hpairsLow, hstripesLow, Nat.max_eq_left hpositive]
  exact hcuts.operations_eq hbands

end Execute

/-- An operand that was given memory is not larger than the memory. -/
theorem Session.attach_operand_le {device : Device} {gemm : Gemm} {options : Options} {session : Session}
    (h : attach device gemm options = .ok (.attached session)) (operand : Operand) :
    (session.buffers.operand operand).bytes ≤ device.memory.capacity := by
  have hcapacity {first second : Device} (htick : first.tick = .ok second) :
      second.memory.capacity = first.memory.capacity :=
    first.tick_keeps (fun current => current.memory.capacity = first.memory.capacity) (fun _ h => h)
      (fun _ _ _ h hturn => hturn.settled.window.1.trans h) rfl htick
  cases attach_attaches h with
  | attached hsigned hdescribed _ hallocate =>
    rw [← hcapacity hsigned, ← hcapacity hdescribed]
    cases allocateBuffers_cuts hallocate with
    | cut _ hlhs _ hrhs _ _ =>
      obtain ⟨rfl, _, hlhsSize, _, _, hlhsRoom, _, rfl⟩ := Memory.allocate_eq_ok hlhs
      obtain ⟨rfl, _, hrhsSize, _, _, hrhsRoom, _, _⟩ := Memory.allocate_eq_ok hrhs
      dsimp only at hrhsRoom
      cases operand with
      | lhs => exact Nat.le_trans hlhsSize (Nat.le_trans hlhsRoom (Nat.sub_le _ _))
      | rhs => exact Nat.le_trans hrhsSize (Nat.le_trans hrhsRoom (Nat.sub_le _ _))

theorem History.operand_le {device : Device} {watch : Watch} (h : History device watch) (operand : Operand) :
    (watch.session.buffers.operand operand).bytes ≤ device.memory.capacity := by
  obtain ⟨_, _, session, hattach, hsame⟩ := h.attached
  rw [hsame.buffers]
  exact Session.attach_operand_le hattach operand

theorem Schedule.counts_get (schedule : Schedule) (stage : Stage) :
    schedule.counts.get stage = (schedule.program stage).length := by
  cases stage with
  | fetch => exact schedule.program_fetch_length.symm
  | execute => exact schedule.program_execute_length.symm
  | result => exact schedule.program_result_length.symm

/-- Fetching a plane of the right operand for each plane of the left one takes a cycle for every row of them. -/
theorem Layout.ScheduleWritten.rhsRows_le {layout : Layout} {schedule : Schedule} {start last : Residency}
    {bandPairs : Nat} {steps : List Layout.Step} {results : List (Instruction ResultCommand)}
    (h : layout.ScheduleWritten schedule start last bandPairs steps results)
    (hcuts : layout.plan.Cuts layout.geometry layout.gemm)
    (hnarrow : layout.geometry.readWidth ≤ layout.geometry.commonDim)
    (hsmall : ∃ bytes, layout.gemm.rhs.bytes = .ok bytes ∧ bytes < Word32.size) {cycles : Nat}
    (hread : schedule.traffic.fetchBytes * 8 ≤ cycles * layout.geometry.readWidth)
    (hplanes : 3 ≤ layout.gemm.rhs.bits) :
    layout.gemm.lhs.bits * layout.gemm.rhs.paddedRows ≤ cycles := by
  have hshape := hcuts.shape .rhs
  have hwidth : layout.geometry.readWidth ≤ 8 * layout.gemm.rhs.rowBytes := by
    refine Nat.le_trans hnarrow ?_
    rw [show 8 * layout.gemm.rhs.rowBytes = layout.gemm.rhs.paddedCols from hshape.eight_mul_rowBytes]
    exact Nat.le_of_dvd hshape.paddedCols_pos (Nat.dvd_of_mod_eq_zero hshape.paddedCols_dim)
  have hrow : 0 < 8 * layout.gemm.rhs.rowBytes := Nat.mul_pos (by decide) hshape.rowBytes_pos
  refine Nat.le_of_mul_le_mul_right ?_ hrow
  calc layout.gemm.lhs.bits * layout.gemm.rhs.paddedRows * (8 * layout.gemm.rhs.rowBytes)
    _ = layout.gemm.lhs.bits * layout.gemm.rhs.paddedRows * layout.gemm.rhs.rowBytes * 8 := by ring
    _ ≤ schedule.traffic.fetchBytes * 8 := Nat.mul_le_mul_right 8 (h.rhs_le_fetchBytes hcuts hsmall hplanes)
    _ ≤ cycles * layout.geometry.readWidth := hread
    _ ≤ cycles * (8 * layout.gemm.rhs.rowBytes) := Nat.mul_le_mul_left _ hwidth

/-- What the counters of a run say is what its stages have done. -/
theorem Watch.Sound.accounted {device : Device} {watch : Watch} (h : watch.Sound device)
    (hgeometry : watch.session.device.geometry = watch.session.geometry)
    (hoperands : ∀ operand, (watch.session.buffers.operand operand).bytes < Word32.size)
    (hbound : watch.session.buffers.result.bytes < Word32.size) {schedule : Schedule} {residency : Residency}
    (hschedule : watch.session.nextSchedule = .ok (schedule, residency)) {counters : Counters}
    (hcycles : counters.cycles < Word32.size)
    (hstages : ∀ stage, (counters.stages.get stage).total + 2 = counters.cycles ∧
      (counters.stages.get stage).send = (schedule.program stage).length ∧
      (counters.stages.get stage).run =
        ((schedule.program stage).map (workCycles watch.session.device.duration)).sum) :
    Report.Accounted {
      geometry := watch.session.geometry
      gemm := watch.session.gemm
      counters
      traffic := schedule.traffic
      clock := watch.session.clock
      instructions := schedule.counts } schedule := by
  obtain ⟨bandPairs, steps, results, hwritten⟩ := Layout.schedule_written hschedule
  have hcuts := h.placed.cuts
  have hfits (stage : Stage) (operation : Operation) (hoperation : operation ∈ schedule.program stage) :
      operation.command.Fits :=
    hwritten.fits hcuts h.placed.result h.placed.result_end hoperation
  obtain ⟨_, hcheck, _⟩ := bind_eq_ok_iff.mp h.placed.plan
  obtain ⟨hread, hwrite⟩ := Geometry.channels hcheck
  have hsmall (operand : Operand) : ∃ bytes, (watch.session.gemm.operand operand).bytes = .ok bytes ∧
      bytes < Word32.size :=
    ⟨_, h.placed.operand operand, hoperands operand⟩
  have hresultSmall : ∃ bytes, watch.session.gemm.resultBytes = .ok bytes ∧ bytes < Word32.size :=
    ⟨_, h.placed.result, hbound⟩
  have hfetch := (hstages .fetch).2.2.trans (fetchCycles_eq (hgeometry ▸ hread) (hfits .fetch))
  have hresult := (hstages .result).2.2.trans (resultCycles_eq (hgeometry ▸ hwrite) (hfits .result))
  have hexecute := Layout.schedule_operations (Session.planFor_eq_ok h.placed.plan).1 (hsmall .lhs) hresultSmall
    hschedule watch.session.device
  rw [← (hstages .execute).2.2] at hexecute
  rw [hgeometry] at hfetch hresult
  have hfetchBytes : schedule.traffic.fetchBytes * 8 ≤
      (counters.stages.get .fetch).run * watch.session.geometry.readWidth := by
    rw [hfetch, hwritten.fetchBytes_eq, moved, Schedule.program, List.map_map]
    exact hread.sum_bytes_le _ _
  have hcounted (stage : Stage) : (counters.stages.get stage).run < 2 ^ 32 := by
    have htotal := (hstages stage).1
    unfold StateCycles.total at htotal
    unfold Word32.size at hcycles
    omega
  constructor
  case total => exact fun stage => (hstages stage).1
  case send => exact fun stage => (hstages stage).2.1.trans (schedule.counts_get stage).symm
  case fetch => exact hfetch
  case result => exact hresult
  case execute => exact hexecute
  case efficiency =>
    have haddressable := hcuts.addressable hsmall hresultSmall
    have hpeak := Nat.lt_of_le_of_lt hcuts.exactPeak_le haddressable.operations_lt
    refine Report.stageEfficiency_eq_one haddressable (fun hplanes => ?_) hpeak
      (Nat.lt_trans (hcounted .execute) (by norm_num)) hexecute
    have hrows := hwritten.rhsRows_le hcuts (Geometry.readWidth_le hcheck) (hsmall .rhs) hfetchBytes hplanes
    exact Nat.lt_of_le_of_lt hrows (hcounted .fetch)
  case read => exact hfetchBytes
  case written =>
    change schedule.traffic.writeBytes * 8 ≤ (counters.stages.get .result).run * _
    rw [hresult, hwritten.writeBytes_eq, moved, Schedule.program, List.map_map]
    exact hwrite.sum_bytes_le _ _

/-- Not more cycles were counted in a session than its device went through. -/
theorem History.counted_le {device : Device} {watch : Watch} (h : History device watch) :
    countedCycles watch.trail ≤ watch.session.device.statistics.ticks := by
  induction h with
  | attach _ => exact Nat.zero_le _
  | @run watch after _ _ _ _ hrun _ ih =>
    rcases Watch.run_eq_ok_iff.mp hrun with ⟨_, _, _, rfl⟩ |
      ⟨schedule, residency, streamEnd, last, _, hstream, hend, htrail, _⟩
    · exact ih
    · obtain ⟨left, reached, hreached, rfl⟩ := counted_operated.streamThrough ih hstream
      rw [htrail, (Prod.mk.inj hend).2]
      cases streamEnd with
      | finished counters => exact hreached
      | exhausted => exact hreached
      | stopped reason =>
        exact (countedCycles_reset reached.trail reached.device).trans_le hreached
  | setOperand _ hset ih =>
    rcases Watch.setOperand_eq_ok hset with rfl | ⟨_, memory, _, rfl⟩
    · exact ih
    · exact ih
  | readResult _ hread ih =>
    obtain ⟨_, rfl⟩ := Session.readResult_frame hread
    exact ih
  | @reset watch _ ih => exact (countedCycles_reset watch.trail watch.session.device).trans_le ih
  | stall _ _ _ ih => exact ih
  | configure _ _ ih => exact ih

/-- A run that came through is accounted for cycle by cycle, if its cycles can be counted: the global counter is the
number of cycles that were counted, and two ahead of every stage; every stage hands on once for each instruction, and
works as long as its channel or the array takes. -/
theorem cycles_accounted {device : Device} {watch after : Watch} (hhistory : History device watch)
    (hcapacity : device.memory.capacity < Word32.size) {patience : Nat} {surroundings : Surroundings} {report : Report}
    (hrun : watch.run patience surroundings = .ok (.finished report, after))
    (hcycles : countedCycles after.trail < countedCycles watch.trail + Word32.size) :
    ∃ schedule residency, watch.session.nextSchedule = .ok (schedule, residency) ∧
      countedCycles after.trail = countedCycles watch.trail + report.counters.cycles ∧ report.Accounted schedule := by
  have hsound := hhistory.sound
  rcases Watch.run_eq_ok_iff.mp hrun with ⟨_, _, hended, _⟩ |
    ⟨schedule, residency, streamEnd, last, hschedule, hstream, hend, htrail, _⟩
  · cases hended
  cases streamEnd with
  | stopped reason => cases (Prod.mk.inj hend).1
  | exhausted => cases (Prod.mk.inj hend).1
  | finished counters =>
    obtain ⟨hreport, _⟩ := Prod.mk.inj hend
    obtain rfl := Session.RunEnd.finished.inj hreport
    refine ⟨schedule, residency, hschedule, ?_⟩
    obtain ⟨bandPairs, steps, results, hwritten⟩ := Layout.schedule_written hschedule
    rw [htrail] at hcycles ⊢
    obtain ⟨hcounted, hstages⟩ := streamThrough_tallied hwritten.rotates hsound.off hstream hcycles
    refine ⟨hcounted, ?_⟩
    have hoperands (operand : Operand) := Nat.lt_of_le_of_lt (hhistory.operand_le operand) hcapacity
    have hresult := Nat.lt_of_le_of_lt hsound.placed.result_le hcapacity
    rw [hcounted] at hcycles
    exact hsound.accounted hhistory.geometry hoperands hresult hschedule (Nat.lt_of_add_lt_add_left hcycles) hstages

/-- In 366 cycles, the array works for 6 on the small product, and waits for its tiles in 320. -/
theorem cycles_accounted_small :
    ∃ session report after schedule residency, smallSession = some session ∧
      (Watch.begin session).run 1000 (.still false) = .ok (.finished report, after) ∧
      report.counters = ⟨368, ⟨40, 320, 3, 3⟩, ⟨37, 6, 3, 320⟩, ⟨2, 32, 1, 331⟩⟩ ∧
      session.nextSchedule = .ok (schedule, residency) ∧ countedCycles after.trail = 368 ∧
      report.Accounted schedule := by
  have hcounts : smallSession.bind (fun session => ((Watch.begin session).run 1000 (.still false)).toOption.bind
      fun outcome => outcome.1.report?.map fun report =>
        (report.counters, outcome.2.session.device.statistics.ticks)) =
          some (⟨368, ⟨40, 320, 3, 3⟩, ⟨37, 6, 3, 320⟩, ⟨2, 32, 1, 331⟩⟩, 413) := by
    decide +kernel
  obtain ⟨session, hsession, hcounts⟩ := Option.bind_eq_some_iff.mp hcounts
  obtain ⟨⟨ended, after⟩, houtcome, hcounts⟩ := Option.bind_eq_some_iff.mp hcounts
  obtain ⟨report, hreport, hcounts⟩ := Option.map_eq_some_iff.mp hcounts
  obtain ⟨hcounters, hticks⟩ := Prod.mk.inj hcounts
  have hrun : (Watch.begin session).run 1000 (.still false) = .ok (.finished report, after) := by
    rw [← Session.RunEnd.eq_finished hreport]
    exact toOption_eq_some_iff.mp houtcome
  have hhistory : History (.ofGeometry .reference) (.begin session) := .attach (smallSession_attached hsession)
  have hcounted : countedCycles after.trail < Word32.size := by
    refine Nat.lt_of_le_of_lt (hhistory.run hrun nofun).counted_le ?_
    rw [hticks]
    decide
  obtain ⟨schedule, residency, hschedule, hcycles, haccounted⟩ :=
    cycles_accounted hhistory (by decide) hrun (Nat.lt_of_lt_of_le hcounted (Nat.le_add_left _ _))
  rw [hcounters] at hcycles
  exact ⟨session, report, after, schedule, residency, hsession, hrun, hcounters, hschedule,
    hcycles.trans (Nat.zero_add _), haccounted⟩

end BitSerial
