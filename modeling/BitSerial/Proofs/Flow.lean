import Mathlib.Logic.Function.Basic
import BitSerial.Proofs.Turn

/-! # The flow of three programs through a device

The host has a program for each stage and pushes its tokens and commands, each in order but otherwise when it likes.
The flow says where everything is: for each stage, what is queued or not yet pushed is what the program has after the
operation in flight, and the region counts follow from how far the stages have come. A turn of any stage keeps the
flow, whatever the programs are, and so does everything that a host may do.
-/

namespace BitSerial

/-- What the host has still to push. -/
structure Backlog where
  tokens : PerStage (List Token)
  commands : PerStage (List Command)

/-- Seen through a function of one stage, a replaced stage is an update. -/
theorem PerStage.view_set_eq_update {α β : Type} (view : α → β) (family : PerStage α) (value : α) (stage : Stage) :
    (fun other => view ((family.set value stage).get other)) =
      Function.update (fun other => view (family.get other)) stage (view value) := by
  funext other
  rw [PerStage.get_set]
  by_cases hother : other = stage
  · subst hother
    rw [if_pos rfl, Function.update_self]
  · rw [if_neg hother, Function.update_of_ne hother]

namespace Backlog

/-- All of three programs. -/
def ofPrograms (programs : Stage → List Operation) : Backlog where
  tokens := .of fun stage => (programs stage).map (·.token)
  commands := .of fun stage => (programs stage).map (·.command)

def withTokens (left : Backlog) (rest : List Token) (stage : Stage) : Backlog :=
  { left with tokens := left.tokens.set rest stage }

def withCommands (left : Backlog) (rest : List Command) (stage : Stage) : Backlog :=
  { left with commands := left.commands.set rest stage }

@[simp] theorem withTokens_self (left : Backlog) (stage : Stage) :
    left.withTokens (left.tokens.get stage) stage = left := by
  simp [withTokens]

@[simp] theorem withCommands_self (left : Backlog) (stage : Stage) :
    left.withCommands (left.commands.get stage) stage = left := by
  simp [withCommands]

end Backlog

namespace Command

/-- Whether a command takes a result region when it starts. -/
def opens : Command → Bool
  | .fetch _ => false
  | .execute command => command.clear
  | .result _ => false

/-- Whether a command hands a result region on when it is done. -/
def closes : Command → Bool
  | .fetch _ => false
  | .execute command => command.commit
  | .result _ => false

end Command

/-- How many of the first operations of a program have a flag. -/
def flagged (flag : Command → Bool) (program : List Operation) (count : Nat) : Nat :=
  (program.take count).countP fun operation => flag operation.command

theorem flagged_zero (flag : Command → Bool) (program : List Operation) : flagged flag program 0 = 0 := rfl

theorem flagged_succ (flag : Command → Bool) {program : List Operation} {count : Nat} {operation : Operation}
    (h : program[count]? = some operation) :
    flagged flag program (count + 1) = flagged flag program count + if flag operation.command then 1 else 0 := by
  simp [flagged, List.take_add_one, h, List.countP_append, List.countP_cons]

/-- Where the operations of a program are that a stage works through: as many as `position` are done, and the stage had
completed `first` before them. -/
structure Lane (program : List Operation) (tokens : List Token) (commands : List Command) (first : Nat)
    (controller : Controller) (position : Nat) : Prop where
  completed : controller.completed = first + position
  position_le : position ≤ program.length
  tokens_eq : controller.tokens.toList ++ tokens =
    (program.drop (position + controller.activity.taken)).map (·.token)
  commands_eq : controller.commands.toList ++ commands =
    (program.drop (position + controller.activity.taken)).map (·.command)
  inFlight : ∀ operation, controller.activity.operation? = some operation → program[position]? = some operation

/-- How the region counts follow from what the stages have done and hold. -/
structure Regions (program : List Operation) (handoff : Handoff) (position held : Stage → Nat) : Prop where
  operandFree : handoff.operandFree + (position .fetch + held .fetch) = operandSlots + position .execute
  operandFull : handoff.operandFull + (position .execute + held .execute) = position .fetch
  resultFree : handoff.resultFree + flagged Command.opens program (position .execute + held .execute) =
    resultSlots + position .result
  resultFull : handoff.resultFull + (position .result + held .result) =
    flagged Command.closes program (position .execute)

/-- The flow of three programs: a lane for each stage, and the regions between them. -/
structure Flow (programs : Stage → List Operation) (first : Stage → Nat) (left : Backlog)
    (stages : PerStage Controller) (handoff : Handoff) (position : Stage → Nat) : Prop where
  lane : ∀ stage, Lane (programs stage) (left.tokens.get stage) (left.commands.get stage) (first stage)
    (stages.get stage) (position stage)
  regions : Regions (programs .execute) handoff position fun stage => (stages.get stage).activity.held

/-- Every operation of a program is for the stage that the program is for. -/
def Staged (programs : Stage → List Operation) : Prop :=
  ∀ stage operation, operation ∈ programs stage → operation.command.stage = stage

namespace Regions

variable {program : List Operation} {handoff after : Handoff} {position held : Stage → Nat} {stage : Stage}
  {operation : Operation}

theorem acquire (h : Regions program handoff position held) (hstage : operation.command.stage = stage)
    (hheld : held stage = 0) (hat : stage = .execute → program[position .execute]? = some operation)
    (hacquire : handoff.acquire? operation.command = some after) :
    Regions program after position (Function.update held stage 1) := by
  obtain ⟨hoperandFree, hoperandFull, hresultFree, hresultFull⟩ := h
  cases hcommand : operation.command with
  | fetch command =>
    rw [hcommand] at hstage hacquire
    change Stage.fetch = stage at hstage
    subst hstage
    simp only [Handoff.acquire?, Option.ite_none_left_eq_some, Option.some.injEq] at hacquire
    obtain ⟨hfree, rfl⟩ := hacquire
    constructor <;> simp [hresultFree, hresultFull, hoperandFull]
    omega
  | execute command =>
    rw [hcommand] at hstage hacquire
    change Stage.execute = stage at hstage
    subst hstage
    have hopens := flagged_succ Command.opens (hat rfl)
    simp only [hcommand, Command.opens] at hopens
    simp only [Handoff.acquire?, Option.ite_none_left_eq_some, Option.some.injEq, not_or, not_and] at hacquire
    obtain ⟨⟨hfull, hfree⟩, rfl⟩ := hacquire
    rw [hheld, Nat.add_zero] at hoperandFull hresultFree
    constructor <;> simp [hoperandFree, hresultFull, hopens]
    · omega
    · cases hclear : command.clear with
      | false =>
        simp
        omega
      | true =>
        have := hfree hclear
        simp
        omega
  | result command =>
    rw [hcommand] at hstage hacquire
    change Stage.result = stage at hstage
    subst hstage
    simp only [Handoff.acquire?, Option.ite_none_left_eq_some, Option.some.injEq] at hacquire
    obtain ⟨hfull, rfl⟩ := hacquire
    constructor <;> simp [hoperandFree, hoperandFull, hresultFree]
    omega

theorem release (h : Regions program handoff position held) (hstage : operation.command.stage = stage)
    (hheld : held stage = 1) (hat : stage = .execute → program[position .execute]? = some operation)
    (hrelease : handoff.release operation.command = .ok after) :
    Regions program after (Function.update position stage (position stage + 1)) (Function.update held stage 0) := by
  obtain ⟨hoperandFree, hoperandFull, hresultFree, hresultFull⟩ := h
  cases hcommand : operation.command with
  | fetch command =>
    rw [hcommand] at hstage hrelease
    change Stage.fetch = stage at hstage
    subst hstage
    simp only [Handoff.release, bind_eq_ok_iff, Word64.add_eq_ok_iff, pure_eq_ok_iff] at hrelease
    obtain ⟨_, ⟨_, rfl⟩, rfl⟩ := hrelease
    constructor <;> simp [hresultFree, hresultFull]
    · omega
    · omega
  | execute command =>
    rw [hcommand] at hstage hrelease
    change Stage.execute = stage at hstage
    subst hstage
    have hcloses := flagged_succ Command.closes (hat rfl)
    simp only [hcommand, Command.closes] at hcloses
    simp only [Handoff.release, bind_eq_ok_iff, Word64.add_eq_ok_iff] at hrelease
    obtain ⟨_, ⟨_, rfl⟩, hrelease⟩ := hrelease
    rw [hheld] at hoperandFull hresultFree
    split at hrelease
    next hcommit =>
      simp only [bind_eq_ok_iff, Word64.add_eq_ok_iff, pure_eq_ok_iff] at hrelease
      obtain ⟨_, ⟨_, rfl⟩, rfl⟩ := hrelease
      rw [if_pos hcommit] at hcloses
      constructor <;> simp [hoperandFull, hresultFree, hcloses]
      · omega
      · omega
    next hcommit =>
      rw [pure_eq_ok_iff] at hrelease
      subst hrelease
      rw [if_neg hcommit] at hcloses
      constructor <;> simp [hoperandFull, hresultFree, hcloses, hresultFull]
      omega
  | result command =>
    rw [hcommand] at hstage hrelease
    change Stage.result = stage at hstage
    subst hstage
    simp only [Handoff.release, bind_eq_ok_iff, Word64.add_eq_ok_iff, pure_eq_ok_iff] at hrelease
    obtain ⟨_, ⟨_, rfl⟩, rfl⟩ := hrelease
    constructor <;> simp [hoperandFree, hoperandFull]
    · omega
    · omega

end Regions

namespace Lane

variable {program : List Operation} {tokens : List Token} {commands : List Command} {first position : Nat}
  {controller : Controller}

/-- The operation in flight belongs to the program. -/
theorem position_add_taken_le (h : Lane program tokens commands first controller position) :
    position + controller.activity.taken ≤ program.length := by
  cases hactivity : controller.activity with
  | idle => exact h.position_le
  | receiving operation => exact (List.getElem?_eq_some_iff.mp (h.inFlight operation (by rw [hactivity]; rfl))).1
  | running operation left => exact (List.getElem?_eq_some_iff.mp (h.inFlight operation (by rw [hactivity]; rfl))).1
  | sending operation => exact (List.getElem?_eq_some_iff.mp (h.inFlight operation (by rw [hactivity]; rfl))).1

/-- What a stage has taken, what is queued for it and what is left make up its program. -/
theorem length_eq (h : Lane program tokens commands first controller position) :
    position + controller.activity.taken + (controller.tokens.length + tokens.length) = program.length ∧
      position + controller.activity.taken + (controller.commands.length + commands.length) = program.length := by
  have htaken := h.position_add_taken_le
  have htokens := congrArg List.length h.tokens_eq
  have hcommands := congrArg List.length h.commands_eq
  rw [List.length_append, Queue.length_toList, List.length_map, List.length_drop] at htokens hcommands
  omega

/-- A lane sees nothing of a stage but its queues, its sequencer and how many operations it completed. -/
theorem of_eq (h : Lane program tokens commands first controller position) {other : Controller}
    (hcompleted : other.completed = controller.completed) (htokens : other.tokens = controller.tokens)
    (hcommands : other.commands = controller.commands) (hactivity : other.activity = controller.activity) :
    Lane program tokens commands first other position := by
  obtain ⟨hfirst, hposition, htokensEq, hcommandsEq, hinFlight⟩ := h
  refine ⟨?_, hposition, ?_, ?_, ?_⟩
  · rwa [hcompleted]
  · rwa [htokens, hactivity]
  · rwa [hcommands, hactivity]
  · rwa [hactivity]

theorem counted (h : Lane program tokens commands first controller position) (counting : Bool) :
    Lane program tokens commands first (controller.counted counting) position := by
  exact h.of_eq (by simp) (by simp) (by simp) (by simp)

/-- The next token and the next command make up the next operation of the program. -/
theorem take (h : Lane program tokens commands first controller position) {token : Token} {command : Command}
    {laterTokens : Queue Token} {laterCommands : Queue Command} (hactivity : controller.activity = .idle)
    (htokens : controller.tokens.toList = token :: laterTokens.toList)
    (hcommands : controller.commands.toList = command :: laterCommands.toList) :
    Lane program tokens commands first
      { controller with
        tokens := laterTokens, commands := laterCommands, activity := .receiving ⟨command, token⟩ } position := by
  have htokensEq := h.tokens_eq
  have hcommandsEq := h.commands_eq
  rw [hactivity, htokens, List.cons_append] at htokensEq
  rw [hactivity, hcommands, List.cons_append] at hcommandsEq
  simp only [Activity.taken, Nat.add_zero] at htokensEq hcommandsEq
  cases hdrop : program.drop position with
  | nil =>
    rw [hdrop] at htokensEq
    cases htokensEq
  | cons operation rest =>
    rw [hdrop, List.map_cons, List.cons.injEq] at htokensEq hcommandsEq
    obtain ⟨rfl, htokensEq⟩ := htokensEq
    obtain ⟨rfl, hcommandsEq⟩ := hcommandsEq
    have hrest : program.drop (position + 1) = rest := by
      rw [← List.tail_drop, hdrop, List.tail_cons]
    refine ⟨h.completed, h.position_le, ?_, ?_, ?_⟩
    · simpa only [Activity.taken, hrest] using htokensEq
    · simpa only [Activity.taken, hrest] using hcommandsEq
    · intro found hfound
      simp only [Activity.operation?, Option.some.injEq] at hfound
      rw [← List.head?_drop, hdrop, List.head?_cons, ← hfound]

/-- While the operation in flight stays in flight, nothing else changes. -/
theorem progress (h : Lane program tokens commands first controller position) {activity : Activity}
    (htaken : activity.taken = controller.activity.taken)
    (hoperation : activity.operation? = controller.activity.operation?) :
    Lane program tokens commands first { controller with activity } position := by
  obtain ⟨hcompleted, hposition, htokens, hcommands, hinFlight⟩ := h
  refine ⟨hcompleted, hposition, ?_, ?_, ?_⟩
  · simpa only [htaken] using htokens
  · simpa only [htaken] using hcommands
  · simpa only [hoperation] using hinFlight

theorem handOn (h : Lane program tokens commands first controller position) {operation : Operation}
    (hactivity : controller.activity = .sending operation) :
    Lane program tokens commands first { controller with activity := .idle, completed := controller.completed + 1 }
      (position + 1) := by
  have hlt : position < program.length :=
    (List.getElem?_eq_some_iff.mp (h.inFlight operation (by rw [hactivity]; rfl))).1
  obtain ⟨hcompleted, _, htokens, hcommands, _⟩ := h
  rw [hactivity] at htokens hcommands
  refine ⟨?_, hlt, htokens, hcommands, nofun⟩
  change controller.completed + 1 = first + (position + 1)
  omega

theorem pushToken {token : Token} {rest : List Token}
    (h : Lane program (token :: rest) commands first controller position) (hroom : controller.tokensFull = false) :
    Lane program rest commands first (controller.pushToken token) position := by
  obtain ⟨hcompleted, hposition, htokens, hcommands, hinFlight⟩ := h
  rw [Controller.pushToken, hroom]
  refine ⟨hcompleted, hposition, ?_, hcommands, hinFlight⟩
  change (controller.tokens.push token).toList ++ rest = _
  rw [Queue.toList_push, List.append_assoc]
  exact htokens

theorem pushCommand {command : Command} {rest : List Command}
    (h : Lane program tokens (command :: rest) first controller position) (hroom : controller.commandsFull = false) :
    Lane program tokens rest first (controller.pushCommand command) position := by
  obtain ⟨hcompleted, hposition, htokens, hcommands, hinFlight⟩ := h
  rw [Controller.pushCommand, hroom]
  refine ⟨hcompleted, hposition, htokens, ?_, hinFlight⟩
  change (controller.commands.push command).toList ++ rest = _
  rw [Queue.toList_push, List.append_assoc]
  exact hcommands

end Lane

namespace Flow

variable {programs : Stage → List Operation} {first : Stage → Nat} {left : Backlog} {stages : PerStage Controller}
  {handoff : Handoff} {position : Stage → Nat}

theorem position_eq (h : Flow programs first left stages handoff position) (stage : Stage) :
    (stages.get stage).completed = first stage + position stage := (h.lane stage).completed

/-- The flow goes on with a changed stage. -/
theorem replace (h : Flow programs first left stages handoff position) {stage : Stage} {controller : Controller}
    {after : Handoff} {reached : Nat}
    (hlane : Lane (programs stage) (left.tokens.get stage) (left.commands.get stage) (first stage) controller reached)
    (hregions : Regions (programs .execute) after (Function.update position stage reached)
      (Function.update (fun other => (stages.get other).activity.held) stage controller.activity.held)) :
    Flow programs first left (stages.set controller stage) after (Function.update position stage reached) := by
  refine ⟨fun other => ?_, ?_⟩
  · rw [PerStage.get_set]
    by_cases hother : other = stage
    · subst hother
      rw [if_pos rfl, Function.update_self]
      exact hlane
    · rw [if_neg hother, Function.update_of_ne hother]
      exact h.lane other
  · have hheld := stages.view_set_eq_update (·.activity.held) controller stage
    rwa [hheld]

/-- The flow goes on with a stage that has neither taken nor handed on regions. -/
theorem replace_of_held_eq (h : Flow programs first left stages handoff position) {stage : Stage}
    {controller : Controller}
    (hlane : Lane (programs stage) (left.tokens.get stage) (left.commands.get stage) (first stage) controller
      (position stage))
    (hheld : controller.activity.held = (stages.get stage).activity.held) :
    Flow programs first left (stages.set controller stage) handoff position := by
  have hflow : Flow programs first left (stages.set controller stage) handoff
      (Function.update position stage (position stage)) := h.replace hlane (by
    rw [hheld, Function.update_eq_self, Function.update_eq_self]
    exact h.regions)
  rwa [Function.update_eq_self] at hflow

/-- The positions are what the stages completed since the flow began. -/
theorem position_eq_sub (h : Flow programs first left stages handoff position) :
    position = fun stage => (stages.get stage).completed - first stage := by
  funext stage
  rw [h.position_eq, Nat.add_sub_cancel_left]

theorem operation_staged (hstaged : Staged programs) (h : Flow programs first left stages handoff position)
    {stage : Stage} {operation : Operation} (hoperation : (stages.get stage).activity.operation? = some operation) :
    operation.command.stage = stage :=
  hstaged stage operation (List.mem_of_getElem? ((h.lane stage).inFlight operation hoperation))

/-- Every move of a stage keeps the flow. -/
theorem move (hstaged : Staged programs) (h : Flow programs first left stages handoff position) {stage : Stage}
    {counting : Bool} {duration : Operation → Except Fault Nat} {finished : Option Operation} {moved : Controller}
    {after : Handoff}
    (hmove : Controller.Move duration ((stages.get stage).counted counting) handoff finished moved after) :
    ∃ reached, Flow programs first left (stages.set moved stage) after reached := by
  have hlane := (h.lane stage).counted counting
  have hheld : ((stages.get stage).counted counting).activity.held = (stages.get stage).activity.held := by
    rw [Controller.counted_activity]
  have hflight {operation : Operation}
      (hoperation : ((stages.get stage).counted counting).activity.operation? = some operation) :
      operation.command.stage = stage ∧
        (stage = .execute → (programs .execute)[position .execute]? = some operation) := by
    rw [Controller.counted_activity] at hoperation
    refine ⟨h.operation_staged hstaged hoperation, ?_⟩
    rintro rfl
    exact (h.lane .execute).inFlight operation hoperation
  -- from here on the stage is only known by its lane, its regions and its operation
  generalize (stages.get stage).counted counting = current at hmove hlane hheld hflight
  cases hmove with
  | stand => exact ⟨_, h.replace_of_held_eq hlane hheld⟩
  | take _ hactivity htokens hcommands =>
    rw [hactivity] at hheld
    exact ⟨_, h.replace_of_held_eq (hlane.take hactivity htokens hcommands) hheld⟩
  | @start operation cycles _ _ hactivity hacquire _ =>
    rw [hactivity] at hheld hflight
    obtain ⟨hstage, hat⟩ := hflight rfl
    have hregions := h.regions.acquire hstage hheld.symm hat hacquire
    have hworking : Lane (programs stage) (left.tokens.get stage) (left.commands.get stage) (first stage)
        { current with activity := .running operation (max cycles 1) } (position stage) :=
      hlane.progress (by rw [hactivity]; rfl) (by rw [hactivity]; rfl)
    exact ⟨_, h.replace hworking (by rwa [Function.update_eq_self])⟩
  | @work operation left _ hactivity _ =>
    rw [hactivity] at hheld
    refine ⟨_, h.replace_of_held_eq (hlane.progress ?_ ?_) hheld⟩
    · rw [hactivity]; rfl
    · rw [hactivity]; rfl
  | finish _ hactivity _ =>
    rw [hactivity] at hheld
    refine ⟨_, h.replace_of_held_eq (hlane.progress ?_ ?_) hheld⟩
    · rw [hactivity]; rfl
    · rw [hactivity]; rfl
  | handOn _ hactivity hrelease =>
    rw [hactivity] at hheld hflight
    obtain ⟨hstage, hat⟩ := hflight rfl
    have hregions := h.regions.release hstage hheld.symm hat hrelease
    exact ⟨_, h.replace (hlane.handOn hactivity) hregions⟩

/-- The turn of a stage keeps the flow. -/
theorem turn {device after : Device} {stage : Stage} (hstaged : Staged programs)
    (h : Flow programs first left device.stages device.handoff position) (hturn : device.Turn stage after) :
    ∃ reached, Flow programs first left after.stages after.handoff reached := by
  cases hturn with
  | off => exact ⟨_, h⟩
  | @on moved handoff _ _ hmove hsettle =>
    rw [Device.settle_frame _ hsettle]
    exact h.move hstaged hmove

theorem tick {device after : Device} (hstaged : Staged programs)
    (h : Flow programs first left device.stages device.handoff position) (htick : device.tick = .ok after) :
    ∃ reached, Flow programs first left after.stages after.handoff reached := by
  obtain ⟨fetched, executed, hfetch, hexecute, hresult⟩ := device.tick_eq_ok_iff.mp htick
  have hcounted : Flow programs first left device.countTick.stages device.countTick.handoff position := h
  obtain ⟨_, h⟩ := hcounted.turn hstaged (Device.tickStage_turn _ hfetch)
  obtain ⟨_, h⟩ := h.turn hstaged (Device.tickStage_turn _ hexecute)
  exact h.turn hstaged (Device.tickStage_turn _ hresult)

/-- A flow begins on a device at rest. -/
theorem start {device : Device} (hrest : device.Quiescent) (programs : Stage → List Operation) :
    Flow programs (fun stage => (device.stages.get stage).completed) (.ofPrograms programs) device.stages
      device.handoff fun _ => 0 := by
  refine ⟨fun stage => ⟨rfl, Nat.zero_le _, ?_, ?_, ?_⟩, ?_⟩
  · rw [hrest.tokens, hrest.activity]
    simp [Backlog.ofPrograms, Activity.taken]
  · rw [hrest.commands, hrest.activity]
    simp [Backlog.ofPrograms, Activity.taken]
  · intro operation hoperation
    rw [hrest.activity] at hoperation
    cases hoperation
  · rw [hrest.handoff]
    constructor <;> simp [hrest.activity, Activity.held, Handoff.idle, flagged_zero]

/-- The flow does not see a change that leaves the sequencers and the lanes as they are. -/
theorem of_lanes (h : Flow programs first left stages handoff position) {leftAfter : Backlog}
    {stagesAfter : PerStage Controller}
    (hlane : ∀ stage, Lane (programs stage) (leftAfter.tokens.get stage) (leftAfter.commands.get stage) (first stage)
      (stagesAfter.get stage) (position stage))
    (hactivity : ∀ stage, (stagesAfter.get stage).activity = (stages.get stage).activity) :
    Flow programs first leftAfter stagesAfter handoff position := by
  refine ⟨hlane, ?_⟩
  simp only [hactivity]
  exact h.regions

theorem pushToken (h : Flow programs first left stages handoff position) {stage : Stage} {token : Token}
    {rest : List Token} (hnext : left.tokens.get stage = token :: rest)
    (hroom : (stages.get stage).tokensFull = false) :
    Flow programs first (left.withTokens rest stage) (stages.set ((stages.get stage).pushToken token) stage) handoff
      position := by
  refine h.of_lanes (fun other => ?_) (fun other => ?_)
  · simp only [Backlog.withTokens, PerStage.get_set]
    by_cases hother : other = stage
    · subst hother
      rw [if_pos rfl, if_pos rfl]
      exact (hnext ▸ h.lane other).pushToken hroom
    · rw [if_neg hother, if_neg hother]
      exact h.lane other
  · rw [PerStage.get_set]
    split
    next hother =>
      rw [hother, Controller.pushToken, hroom]
      rfl
    next => rfl

theorem pushCommand (h : Flow programs first left stages handoff position) {stage : Stage} {command : Command}
    {rest : List Command} (hnext : left.commands.get stage = command :: rest)
    (hroom : (stages.get stage).commandsFull = false) :
    Flow programs first (left.withCommands rest stage) (stages.set ((stages.get stage).pushCommand command) stage)
      handoff position := by
  refine h.of_lanes (fun other => ?_) (fun other => ?_)
  · simp only [Backlog.withCommands, PerStage.get_set]
    by_cases hother : other = stage
    · subst hother
      rw [if_pos rfl, if_pos rfl]
      exact (hnext ▸ h.lane other).pushCommand hroom
    · rw [if_neg hother, if_neg hother]
      exact h.lane other
  · rw [PerStage.get_set]
    split
    next hother =>
      rw [hother, Controller.pushCommand, hroom]
      rfl
    next => rfl

theorem setStalled (h : Flow programs first left stages handoff position) (stage : Stage) (stalled : Bool) :
    Flow programs first left (stages.set ((stages.get stage).setStalled stalled) stage) handoff position := by
  refine h.of_lanes (fun other => ?_) (fun other => ?_)
  · rw [PerStage.get_set]
    split
    next hother => exact hother ▸ (h.lane other).of_eq rfl rfl rfl rfl
    next => exact h.lane other
  · rw [PerStage.get_set]
    split
    next hother => exact hother ▸ rfl
    next => rfl

theorem clearCycles (h : Flow programs first left stages handoff position) :
    Flow programs first left (stages.map (·.clearCycles)) handoff position := by
  refine h.of_lanes (fun stage => ?_) (fun stage => ?_)
  · rw [PerStage.get_map]
    exact (h.lane stage).of_eq rfl rfl rfl rfl
  · rw [PerStage.get_map]
    rfl

/-- The command that is pushed next goes to the stage of its program. -/
theorem stage_of_next_command (hstaged : Staged programs) (h : Flow programs first left stages handoff position)
    {stage : Stage} {command : Command} {rest : List Command} (hnext : left.commands.get stage = command :: rest) :
    command.stage = stage := by
  have hmem : command ∈ ((programs stage).drop (position stage + (stages.get stage).activity.taken)).map (·.command) := by
    rw [← (h.lane stage).commands_eq, hnext]
    simp
  obtain ⟨operation, hoperation, rfl⟩ := List.mem_map.mp hmem
  exact hstaged stage operation (List.mem_of_mem_drop hoperation)

end Flow

end BitSerial
