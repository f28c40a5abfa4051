import BitSerial.Proofs.Driving
import BitSerial.Proofs.Faultless

/-! # Progress

Every stage has a number of moves left until its program is done, and every cycle takes at least one of them unless all
stages wait. That all stages wait can only be when the host has something to push, or when all is done: a stage that
waits for a region waits for a neighbour which is behind, and the one that is furthest behind waits for nobody.
-/

namespace BitSerial

/-- The cycles that an operation works. -/
def workCycles (duration : Operation → Except Fault Nat) (operation : Operation) : Nat :=
  match duration operation with
  | .ok cycles => max cycles 1
  | .error _ => 0

theorem workCycles_eq {duration : Operation → Except Fault Nat} {operation : Operation} {cycles : Nat}
    (h : duration operation = .ok cycles) : workCycles duration operation = max cycles 1 := by
  rw [workCycles, h]

/-- The moves that the operation in flight takes before it is handed on. -/
def Activity.movesLeft (duration : Operation → Except Fault Nat) : Activity → Nat
  | .idle => 0
  | .receiving operation => workCycles duration operation + 3
  | .running _ left => left + 2
  | .sending _ => 1

/-- The moves that a stage takes before its program is done, when it had completed as many operations as given before
the program. -/
def Controller.movesLeft (duration : Operation → Except Fault Nat) (program : List Operation) (first : Nat)
    (controller : Controller) : Nat :=
  controller.activity.movesLeft duration +
    ((program.drop (controller.completed - first + controller.activity.taken)).map
      fun operation => workCycles duration operation + 4).sum

section Moves

variable {duration : Operation → Except Fault Nat} {program : List Operation} {tokens : List Token}
  {commands : List Command} {first position : Nat} {controller moved : Controller} {handoff after : Handoff}
  {finished : Option Operation}

/-- A move is one of those that were left, or the stage stands. -/
theorem Lane.movesLeft_move (h : Lane program tokens commands first controller position)
    (hmove : Controller.Move duration controller handoff finished moved after) :
    moved.movesLeft duration program first < controller.movesLeft duration program first ∨
      (moved = controller ∧ after = handoff) ∧ (controller.stalled = true ∨ controller.Waits handoff) := by
  have hcompleted := h.completed
  cases hmove with
  | stand hstand => exact .inr ⟨⟨rfl, rfl⟩, hstand⟩
  | @take token command laterTokens laterCommands _ hactivity htokens hcommands =>
    have hat := (h.take hactivity htokens hcommands).inFlight ⟨command, token⟩ rfl
    obtain ⟨hlt, hget⟩ := List.getElem?_eq_some_iff.mp hat
    simp only [Controller.movesLeft, hactivity, hcompleted, Nat.add_sub_cancel_left, Activity.movesLeft, Activity.taken,
      Nat.add_zero]
    rw [List.drop_eq_getElem_cons hlt, List.map_cons, List.sum_cons, hget]
    omega
  | start _ hactivity _ hduration =>
    simp only [Controller.movesLeft, hactivity, Activity.movesLeft, Activity.taken, workCycles, hduration]
    omega
  | work _ hactivity hleft =>
    simp only [Controller.movesLeft, hactivity, Activity.movesLeft, Activity.taken]
    omega
  | finish _ hactivity _ =>
    simp only [Controller.movesLeft, hactivity, Activity.movesLeft, Activity.taken]
    omega
  | handOn _ hactivity _ =>
    have hnext : controller.completed + 1 - first = controller.completed - first + 1 := by omega
    simp only [Controller.movesLeft, hactivity, hnext, Activity.movesLeft, Activity.taken, Nat.add_zero]
    omega

theorem Controller.movesLeft_counted (counting : Bool) :
    (controller.counted counting).movesLeft duration program first = controller.movesLeft duration program first := by
  simp only [movesLeft, counted_activity, counted_completed]

end Moves

namespace Device

/-- The moves that the stages take before three programs are done that began on another device. -/
def movesLeft (programs : Stage → List Operation) (device start : Device) : Nat :=
  let left (stage : Stage) :=
    (device.stages.get stage).movesLeft start.duration (programs stage) (start.stages.get stage).completed
  left .fetch + left .execute + left .result

/-- Whether every stage waits. -/
def Waits (device : Device) : Prop := ∀ stage, (device.stages.get stage).Waits device.handoff

/-- Nothing has moved: the devices differ in nothing that a stage does, but for the cycles that were counted. -/
structure Still (device after : Device) : Prop where
  handoff : after.handoff = device.handoff
  stages : ∀ stage, (after.stages.get stage).clearCycles = (device.stages.get stage).clearCycles

namespace Still

variable {programs : Stage → List Operation} {start first second third : Device}

theorem refl (device : Device) : device.Still device := ⟨rfl, fun _ => rfl⟩

theorem trans (h : first.Still second) (hnext : second.Still third) : first.Still third :=
  ⟨hnext.handoff.trans h.handoff, fun stage => (hnext.stages stage).trans (h.stages stage)⟩

theorem stage (h : first.Still second) (stage : Stage) :
    (second.stages.get stage).activity = (first.stages.get stage).activity ∧
      (second.stages.get stage).completed = (first.stages.get stage).completed ∧
      (second.stages.get stage).tokens = (first.stages.get stage).tokens ∧
      (second.stages.get stage).commands = (first.stages.get stage).commands ∧
      (second.stages.get stage).depth = (first.stages.get stage).depth :=
  have hstage := h.stages stage
  ⟨(congrArg Controller.activity hstage :), (congrArg Controller.completed hstage :),
    (congrArg Controller.tokens hstage :), (congrArg Controller.commands hstage :),
    (congrArg Controller.depth hstage :)⟩

theorem movesLeft (h : first.Still second) : second.movesLeft programs start = first.movesLeft programs start := by
  simp only [Device.movesLeft, Controller.movesLeft, h.stage]

theorem waits_iff (h : first.Still second) (stage : Stage) :
    (second.stages.get stage).Waits second.handoff ↔ (first.stages.get stage).Waits first.handoff := by
  simp only [Controller.Waits, h.stage, h.handoff]

theorem full (h : first.Still second) (stream : Stream) : second.full stream = first.full stream := by
  cases stream <;> simp only [Device.full, Controller.tokensFull, Controller.commandsFull, h.stage]

end Still

/-- All stages are enabled and none is frozen. -/
structure Unhindered (device : Device) : Prop where
  enabled : device.enabled = .all true
  moves : ∀ stage, (device.stages.get stage).stalled = false

theorem Turn.unhindered {device after : Device} {stage : Stage} (h : device.Turn stage after)
    (hfree : device.Unhindered) : after.Unhindered :=
  ⟨h.switches.1.trans hfree.enabled, fun other => (h.frame other).2.1.trans (hfree.moves other)⟩

/-- Counting a cycle in a stage moves nothing. -/
theorem still_of_counted {device : Device} {stage : Stage} {counting : Bool} :
    device.Still (device.withMove stage ((device.stages.get stage).counted counting) device.handoff) := by
  refine ⟨rfl, fun other => ?_⟩
  rw [withMove, PerStage.get_set]
  split
  next hother =>
    subst hother
    cases counting <;> rfl
  next => rfl

end Device

namespace Reached

variable {programs : Stage → List Operation} {start recorded after : Recorded} {left : Backlog}

/-- The turn of a stage takes one of the moves that are left, or the stage stands and nothing has moved. -/
theorem movesLeft_turn (hstaged : Staged programs) (hrest : start.device.Quiescent)
    (h : Reached programs start left recorded) (hfree : recorded.device.Unhindered) {stage : Stage}
    (hturn : recorded.turn stage = .ok after) :
    after.device.movesLeft programs start.device < recorded.device.movesLeft programs start.device ∨
      recorded.device.Still after.device ∧ (recorded.device.stages.get stage).Waits recorded.device.handoff := by
  have hdevice := ((Recorded.turn_eq_ok_iff _).mp hturn).1
  generalize after.device = turned at hdevice ⊢
  cases Device.tickStage_turn _ hdevice with
  | off hoff => rw [hfree.enabled, PerStage.get_all] at hoff; cases hoff
  | @on moved handoff _ _ hmove hsettle =>
    have hlane := ((h.flow hstaged hrest).lane stage).counted recorded.device.counting
    rw [Device.settle_frame _ hsettle]
    rw [Device.duration_eq h.geometry] at hmove
    rcases hlane.movesLeft_move hmove with hless | ⟨⟨rfl, rfl⟩, hstand⟩
    · refine .inl ?_
      rw [Controller.movesLeft_counted] at hless
      cases stage <;> simp only [Device.movesLeft, Device.withMove, PerStage.get, PerStage.set] at hless ⊢ <;> omega
    · have hstill := @Device.still_of_counted recorded.device stage recorded.device.counting
      refine .inr ⟨⟨hstill.handoff, hstill.stages⟩, ?_⟩
      rw [Controller.counted_stalled, hfree.moves] at hstand
      simpa [Controller.Waits] using hstand

/-- A cycle takes a move that is left, or all stages wait and nothing has moved. -/
theorem movesLeft_tick (hstaged : Staged programs) (hrest : start.device.Quiescent)
    (h : Reached programs start left recorded) (hfree : recorded.device.Unhindered)
    (htick : recorded.tick = .ok after) :
    after.device.movesLeft programs start.device < recorded.device.movesLeft programs start.device ∨
      recorded.device.Still after.device ∧ after.device.Waits := by
  obtain ⟨fetched, executed, hfetch, hexecute, hresult⟩ := (Recorded.tick_eq_ok_iff _).mp htick
  have hturn {recorded after : Recorded} {stage : Stage} (hfree : recorded.device.Unhindered)
      (hturn : recorded.turn stage = .ok after) : after.device.Unhindered :=
    (Device.tickStage_turn _ ((Recorded.turn_eq_ok_iff _).mp hturn).1).unhindered hfree
  have hcounted : recorded.countTick.device.Unhindered := ⟨hfree.enabled, hfree.moves⟩
  have hfetched := hturn hcounted hfetch
  have hexecuted := hturn hfetched hexecute
  have hle {first second : Device} {waits : Prop}
      (h : second.movesLeft programs start.device < first.movesLeft programs start.device ∨ first.Still second ∧ waits) :
      second.movesLeft programs start.device ≤ first.movesLeft programs start.device := by
    rcases h with hless | ⟨hstill, _⟩
    · exact Nat.le_of_lt hless
    · exact Nat.le_of_eq hstill.movesLeft
  have hfetchLeft := h.count.movesLeft_turn hstaged hrest hcounted hfetch
  have hexecuteLeft := (h.count.turn hfetch).movesLeft_turn hstaged hrest hfetched hexecute
  have hresultLeft := ((h.count.turn hfetch).turn hexecute).movesLeft_turn hstaged hrest hexecuted hresult
  have hcountLeft : recorded.countTick.device.movesLeft programs start.device =
      recorded.device.movesLeft programs start.device := rfl
  rcases hfetchLeft with hless | ⟨hfetchStill, hfetchWaits⟩
  · have := hle hexecuteLeft
    have := hle hresultLeft
    exact .inl (by omega)
  rcases hexecuteLeft with hless | ⟨hexecuteStill, hexecuteWaits⟩
  · have := hle hresultLeft
    rw [hfetchStill.movesLeft] at hless
    exact .inl (by omega)
  rcases hresultLeft with hless | ⟨hresultStill, hresultWaits⟩
  · rw [hexecuteStill.movesLeft, hfetchStill.movesLeft] at hless
    exact .inl hless
  -- a stage that stood in its turn still waits after the turns of the others, since they moved nothing
  have hfirst : recorded.device.Still fetched.device := ⟨hfetchStill.handoff, hfetchStill.stages⟩
  refine .inr ⟨(hfirst.trans hexecuteStill).trans hresultStill, fun stage => ?_⟩
  cases stage with
  | fetch => exact ((hexecuteStill.trans hresultStill).waits_iff .fetch).mpr ((hfetchStill.waits_iff .fetch).mpr hfetchWaits)
  | execute => exact (hresultStill.waits_iff .execute).mpr ((hexecuteStill.waits_iff .execute).mpr hexecuteWaits)
  | result => exact (hresultStill.waits_iff .result).mpr hresultWaits

end Reached

/-- The regions that a command waits for. -/
def Handoff.Lacks (handoff : Handoff) : Command → Prop
  | .fetch _ => handoff.operandFree = 0
  | .execute command => handoff.operandFull = 0 ∨ command.clear = true ∧ handoff.resultFree = 0
  | .result _ => handoff.resultFull = 0

theorem Handoff.acquire?_eq_none_iff {handoff : Handoff} {command : Command} :
    handoff.acquire? command = none ↔ handoff.Lacks command := by
  cases command <;> simp [acquire?, Lacks, or_iff_not_imp_left]

/-- Where a stage is that waits although nothing can be pushed: it is through with its program, or the next operation of
its program waits for regions. -/
theorem Lane.through_or_blocked {program : List Operation} {tokens : List Token} {commands : List Command}
    {first position : Nat} {controller : Controller} {handoff : Handoff}
    (h : Lane program tokens commands first controller position) (hdepth : 0 < controller.depth)
    (hwaits : controller.Waits handoff) (htokens : tokens = [] ∨ controller.tokensFull = true)
    (hcommands : commands = [] ∨ controller.commandsFull = true) :
    controller.activity.held = 0 ∧
      (position = program.length ∧ controller.activity = .idle ∨
        ∃ operation, program[position]? = some operation ∧ handoff.Lacks operation.command) := by
  unfold Controller.Waits at hwaits
  cases hactivity : controller.activity with
  | idle =>
    rw [hactivity] at hwaits
    refine ⟨rfl, .inl ⟨Nat.le_antisymm h.position_le ?_, rfl⟩⟩
    -- an empty queue is not full, so nothing is left to push into it
    rcases hwaits with hempty | hempty
    · have hlength : controller.tokens.length = 0 := by rw [← Queue.length_toList, hempty, List.length_nil]
      have hnone : tokens = [] := htokens.resolve_right fun hfull => by
        simp only [Controller.tokensFull, decide_eq_true_eq] at hfull
        omega
      have heq := h.tokens_eq
      rwa [hempty, hnone, hactivity, List.append_nil, eq_comm, List.map_eq_nil_iff, List.drop_eq_nil_iff] at heq
    · have hlength : controller.commands.length = 0 := by rw [← Queue.length_toList, hempty, List.length_nil]
      have hnone : commands = [] := hcommands.resolve_right fun hfull => by
        simp only [Controller.commandsFull, decide_eq_true_eq] at hfull
        omega
      have heq := h.commands_eq
      rwa [hempty, hnone, hactivity, List.append_nil, eq_comm, List.map_eq_nil_iff, List.drop_eq_nil_iff] at heq
  | receiving operation =>
    rw [hactivity] at hwaits
    exact ⟨rfl, .inr ⟨operation, h.inFlight operation (by rw [hactivity]; rfl), Handoff.acquire?_eq_none_iff.mp hwaits⟩⟩
  | running operation left => rw [hactivity] at hwaits; exact hwaits.elim
  | sending operation => rw [hactivity] at hwaits; exact hwaits.elim

/-- A stage that waits for a region is ahead of the stage that it waits for, so the execute stage cannot wait for both of
its neighbours while they wait for it. -/
theorem Schedule.Spread.execute_of_waits {schedule : Schedule} {steps : Nat} {handoff : Handoff}
    {position held : Stage → Nat} (h : schedule.Spread steps handoff position held) (hrotates : schedule.Rotates steps)
    (hsteps : 0 < steps) (hheld : ∀ stage, held stage = 0)
    (hfetch : position .fetch = schedule.execute.length ∨ handoff.operandFree = 0)
    (hresult : position .result = schedule.result.length ∨ handoff.resultFull = 0)
    (hexecute : position .execute = schedule.execute.length ∨ handoff.operandFull = 0 ∨
      position .execute % steps = 0 ∧ handoff.resultFree = 0) :
    position .execute = schedule.execute.length := by
  obtain ⟨hoperandFree, hoperandFull, hresultFree, hresultFull, -, hposition⟩ := h
  simp only [hheld, Nat.add_zero] at hoperandFree hoperandFull hresultFree hresultFull
  rcases hexecute with hthrough | hempty | ⟨hfirst, hfull⟩
  · exact hthrough
  · -- nothing is fetched, so both operand regions are free
    unfold operandSlots at hoperandFree
    omega
  · -- the first step of an output tile: both result regions are full
    obtain ⟨tile, htile⟩ := Nat.dvd_of_mod_eq_zero hfirst
    have hopened : (position .execute + (steps - 1)) / steps = tile := by
      rw [htile, Nat.mul_add_div hsteps, Nat.div_eq_of_lt (by omega), Nat.add_zero]
    have hclosed : position .execute / steps = tile := by
      rw [htile, Nat.mul_div_cancel_left _ hsteps]
    have houtputs : tile ≤ schedule.result.length := by
      rw [hrotates.execute_length, htile, Nat.mul_comm] at hposition
      exact Nat.le_of_mul_le_mul_right hposition hsteps
    rw [hopened] at hresultFree
    rw [hclosed] at hresultFull
    unfold resultSlots at hresultFree
    omega

/-- There is no deadlock: when all stages wait although nothing can be pushed, all is done. -/
theorem Flow.through_of_waits {schedule : Schedule} {steps : Nat} {first position : Stage → Nat} {left : Backlog}
    {device : Device} (hrotates : schedule.Rotates steps) (hsteps : 0 < steps)
    (h : Flow schedule.program first left device.stages device.handoff position)
    (hdepth : ∀ stage, 0 < (device.stages.get stage).depth) (hwaits : device.Waits)
    (hfull : ∀ stream, left.Exhausted stream ∨ device.full stream = true) (stage : Stage) :
    position stage = (schedule.program stage).length ∧ (device.stages.get stage).activity = .idle := by
  have hspread := h.spread hrotates
  have hplace (stage : Stage) := (h.lane stage).through_or_blocked (hdepth stage) (hwaits stage)
    (hfull (.token stage)) (hfull (.command stage))
  have hfetch : position .fetch = schedule.execute.length ∨ device.handoff.operandFree = 0 := by
    rcases (hplace .fetch).2 with ⟨hthrough, _⟩ | ⟨operation, hat, hlacks⟩
    · exact .inl ((hthrough.trans schedule.program_fetch_length).trans hrotates.fetch_length)
    · obtain ⟨instruction, _, rfl⟩ := Schedule.program_fetch_getElem? hat
      exact .inr hlacks
  have hresult : position .result = schedule.result.length ∨ device.handoff.resultFull = 0 := by
    rcases (hplace .result).2 with ⟨hthrough, _⟩ | ⟨operation, hat, hlacks⟩
    · exact .inl (hthrough.trans schedule.program_result_length)
    · obtain ⟨instruction, _, rfl⟩ := Schedule.program_result_getElem? hat
      exact .inr hlacks
  have hexecute : position .execute = schedule.execute.length := by
    refine hspread.execute_of_waits hrotates hsteps (fun stage => (hplace stage).1) hfetch hresult ?_
    rcases (hplace .execute).2 with ⟨hthrough, _⟩ | ⟨operation, hat, hlacks⟩
    · exact .inl (hthrough.trans schedule.program_execute_length)
    · obtain ⟨instruction, hinstruction, rfl⟩ := Schedule.program_execute_getElem? hat
      refine .inr (hlacks.imp_right fun ⟨hclear, hfree⟩ => ⟨?_, hfree⟩)
      exact ((hrotates.execute _ _ hinstruction).2.2.1).mp hclear
  -- the execute stage is through with its program, and its neighbours are as well
  have hnone {stage : Stage} (hthrough : position stage = (schedule.program stage).length) :
      position stage = (schedule.program stage).length ∧ (device.stages.get stage).activity = .idle := by
    rcases (hplace stage).2 with hthrough | ⟨operation, hat, _⟩
    · exact hthrough
    · have hlt := (List.getElem?_eq_some_iff.mp hat).1
      exact absurd hthrough (Nat.ne_of_lt hlt)
  apply hnone
  cases stage with
  | fetch => rw [hspread.fetch_through hexecute, schedule.program_fetch_length, hrotates.fetch_length]
  | execute => rw [hexecute, schedule.program_execute_length]
  | result =>
    rw [schedule.program_result_length]
    rcases hresult with hthrough | hempty
    · exact hthrough
    · have hfull := hspread.resultFull
      rwa [hexecute, hrotates.execute_length, Nat.mul_div_cancel _ hsteps, (hplace .result).1, hempty, Nat.zero_add,
        Nat.add_zero] at hfull

end BitSerial
