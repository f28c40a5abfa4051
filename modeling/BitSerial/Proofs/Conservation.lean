import BitSerial.Proofs.Flow

/-! # Conservation of regions

A stage takes regions in one state of its controller and hands them on in another, cycles later, and what the stages
work on is up to the host. Whatever it does, every operand region is free, full or with the stage that holds it. The
same goes for result regions as long as the commands that the execute stage takes up open and close output tiles in
turn, which a watcher beside the device can tell.
-/

namespace BitSerial

/-- What a host can do to a device. Reading or writing a register is a cycle; memory is open to the host at all
times. -/
inductive HostAction where
  | readSignature
  | readGeometry
  | poll (stream : Stream)
  | push (entry : Entry)
  | outstanding (stage : Stage)
  | setEnabled (enabled : PerStage Bool)
  | setCounting (counting : Bool)
  | cycleCount
  | stateCycles (stage : Stage) (state : ControlState)
  | step (count : Nat)
  | stall (stage : Stage) (stalled : Bool)
  | reset
  | store (memory : Memory)

namespace HostAction

/-- The cycles that an action takes. -/
def cycles : HostAction → Nat
  | step count => count
  | stall .. => 0
  | reset => 0
  | store _ => 0
  | _ => 1

/-- What an action does to the device after its cycles. -/
def effect (device : Device) : HostAction → Except Fault Device
  | push entry => .ok (device.accept entry)
  | outstanding stage => (device.stages.get stage).outstanding.map fun _ => device
  | setEnabled enabled => .ok { device with enabled }
  | setCounting counting => .ok (device.switch counting)
  | stall stage stalled => .ok (device.stall stage stalled)
  | reset => .ok device.reset
  | store memory => .ok { device with memory }
  | _ => .ok device

end HostAction

namespace Device

/-- Does what the host asks for. The answer is forgotten. -/
def perform (device : Device) : HostAction → Except Fault Device
  | .readSignature => device.readSignature.map (·.2)
  | .readGeometry => device.readGeometry.map (·.2)
  | .poll stream => (device.poll stream).map (·.2)
  | .push entry => device.push entry
  | .outstanding stage => (device.outstanding stage).map (·.2)
  | .setEnabled enabled => device.setEnabled enabled
  | .setCounting counting => device.setCounting counting
  | .cycleCount => device.cycleCount.map (·.2)
  | .stateCycles stage state => (device.stateCycles stage state).map (·.2)
  | .step count => Device.step count device
  | .stall stage stalled => .ok (device.stall stage stalled)
  | .reset => .ok device.reset
  | .store memory => .ok { device with memory }

theorem step_one (device : Device) : Device.step 1 device = device.tick := bind_pure _

/-- Every action is some cycles and then an effect. -/
theorem perform_eq (device : Device) (action : HostAction) :
    device.perform action = Device.step action.cycles device >>= action.effect := by
  have hread {α : Type} (view : Device → α) :
      Except.map (·.2) (device.tick >>= fun device => Except.ok (view device, device)) =
        (device.tick >>= Except.ok : Except Fault Device) := by
    cases device.tick <;> rfl
  cases action with
  | readSignature => exact device.step_one ▸ hread (·.signature)
  | readGeometry => exact device.step_one ▸ hread (·.geometry)
  | poll stream =>
    cases stream with
    | token stage => exact device.step_one ▸ hread fun device => (device.stages.get stage).tokensFull
    | command stage => exact device.step_one ▸ hread fun device => (device.stages.get stage).commandsFull
  | push entry => exact device.step_one ▸ device.push_eq entry
  | outstanding stage =>
    refine device.step_one ▸ ?_
    change Except.map _ (device.outstanding stage) = _
    rw [device.outstanding_eq]
    cases device.tick with
    | error fault => rfl
    | ok device =>
      change Except.map _ (Except.map _ (device.stages.get stage).outstanding) = Except.map _ _
      cases (device.stages.get stage).outstanding <;> rfl
  | setEnabled enabled => exact device.step_one ▸ rfl
  | setCounting counting => exact device.step_one ▸ rfl
  | cycleCount => exact device.step_one ▸ hread (·.cycles)
  | stateCycles stage state => exact device.step_one ▸ hread fun device => (device.stages.get stage).cycles.get state
  | step count => exact (bind_pure (Device.step count device)).symm
  | stall stage stalled => rfl
  | reset => rfl
  | store memory => rfl

end Device

/-- What a watcher of the execute stage has seen since the last reset. -/
structure Watcher where
  /-- The commands that the stage took from its queue, the latest first. -/
  taken : List Command
  /-- The result regions that it took for a command that clears. -/
  opened : Nat
  /-- The result regions that it handed on for a command that commits. -/
  closed : Nat

namespace Watcher

/-- Nothing was seen yet. -/
def fresh : Watcher := ⟨[], 0, 0⟩

/-- Sees what a stage did in a cycle, from what it was doing before the cycle and after it. -/
def observe (watcher : Watcher) : (before after : Activity) → Watcher
  | .idle, .receiving operation => { watcher with taken := operation.command :: watcher.taken }
  | .receiving operation, .running _ _ =>
    { watcher with opened := watcher.opened + if operation.command.opens then 1 else 0 }
  | .sending operation, .idle =>
    { watcher with closed := watcher.closed + if operation.command.closes then 1 else 0 }
  | _, _ => watcher

@[simp] theorem observe_self (watcher : Watcher) (activity : Activity) :
    watcher.observe activity activity = watcher := by
  cases activity <;> rfl

/-- The count of regions goes with the commands, but for those of the command that the stage works on. -/
def Follows (watcher : Watcher) : Activity → Prop
  | .idle => watcher.opened = watcher.taken.countP Command.opens ∧
      watcher.closed = watcher.taken.countP Command.closes
  | .receiving operation => ∃ earlier, watcher.taken = operation.command :: earlier ∧
      watcher.opened = earlier.countP Command.opens ∧ watcher.closed = earlier.countP Command.closes
  | .running operation _ => ∃ earlier, watcher.taken = operation.command :: earlier ∧
      watcher.opened = watcher.taken.countP Command.opens ∧ watcher.closed = earlier.countP Command.closes
  | .sending operation => ∃ earlier, watcher.taken = operation.command :: earlier ∧
      watcher.opened = watcher.taken.countP Command.opens ∧ watcher.closed = earlier.countP Command.closes

/-- A watcher that sees a move keeps up with the stage. -/
theorem Follows.move {watcher : Watcher} {duration : Operation → Except Fault Nat} {controller moved : Controller}
    {handoff after : Handoff} {finished : Option Operation} (h : watcher.Follows controller.activity)
    (hmove : controller.Move duration handoff finished moved after) :
    (watcher.observe controller.activity moved.activity).Follows moved.activity := by
  cases hmove with
  | stand => rwa [observe_self]
  | take _ hactivity =>
    rw [hactivity] at h ⊢
    exact ⟨watcher.taken, rfl, h⟩
  | @start operation _ _ _ hactivity =>
    rw [hactivity] at h ⊢
    obtain ⟨earlier, htaken, hopened, hclosed⟩ := h
    refine ⟨earlier, htaken, ?_, hclosed⟩
    change watcher.opened + _ = watcher.taken.countP Command.opens
    rw [htaken, hopened, List.countP_cons]
  | work _ hactivity =>
    rw [hactivity] at h ⊢
    exact h
  | finish _ hactivity =>
    rw [hactivity] at h ⊢
    exact h
  | handOn _ hactivity =>
    rw [hactivity] at h ⊢
    obtain ⟨earlier, htaken, hopened, hclosed⟩ := h
    refine ⟨hopened, ?_⟩
    change watcher.closed + _ = watcher.taken.countP Command.closes
    rw [htaken, hclosed, List.countP_cons]

end Watcher

/-- Whether an output tile is open after these commands, the latest of which comes first. -/
def openAfter : List Command → Bool
  | [] => false
  | command :: earlier => (openAfter earlier || command.opens) && !command.closes

/-- Commands, the latest of which comes first, that open and close output tiles in turn: none opens a tile while
another one is open, and none closes one without a tile being open. -/
def Bracketed : List Command → Prop
  | [] => True
  | command :: earlier => Bracketed earlier ∧ (command.opens = true → openAfter earlier = false) ∧
      (command.closes = true → (openAfter earlier || command.opens) = true)

instance Bracketed.decidable : (commands : List Command) → Decidable (Bracketed commands)
  | [] => inferInstanceAs (Decidable True)
  | command :: earlier =>
    have := Bracketed.decidable earlier
    inferInstanceAs (Decidable (Bracketed earlier ∧ (command.opens = true → openAfter earlier = false) ∧
      (command.closes = true → (openAfter earlier || command.opens) = true)))

/-- In brackets, a tile is open if one more was opened than closed. -/
theorem Bracketed.countP_opens {commands : List Command} (h : Bracketed commands) :
    commands.countP Command.opens = commands.countP Command.closes + if openAfter commands then 1 else 0 := by
  induction commands with
  | nil => rfl
  | cons command earlier ih =>
    obtain ⟨hearlier, hopens, hcloses⟩ := h
    rw [List.countP_cons, List.countP_cons, ih hearlier, openAfter]
    cases hopen : openAfter earlier <;> cases hcommand : command.opens <;> cases hclose : command.closes <;> simp_all

/-- Under brackets, the stage holds at most one result region that it accumulates into. -/
theorem Watcher.Follows.opened_le {watcher : Watcher} {activity : Activity} (h : watcher.Follows activity)
    (hbracketed : Bracketed watcher.taken) :
    watcher.closed ≤ watcher.opened ∧ watcher.opened ≤ watcher.closed + 1 := by
  have hcount := hbracketed.countP_opens
  -- while a command is worked on, its own flags are what the counts may be apart by
  have hworking {command : Command} {earlier : List Command} (htaken : watcher.taken = command :: earlier)
      (hopened : watcher.opened = watcher.taken.countP Command.opens)
      (hclosed : watcher.closed = earlier.countP Command.closes) :
      watcher.closed ≤ watcher.opened ∧ watcher.opened ≤ watcher.closed + 1 := by
    rw [htaken] at hbracketed hopened
    have hearlier := hbracketed.1.countP_opens
    rw [List.countP_cons] at hopened
    cases hopens : command.opens with
    | false =>
      simp only [hopens, Bool.false_eq_true, if_false] at hopened
      split at hearlier <;> omega
    | true =>
      rw [hbracketed.2.1 hopens] at hearlier
      simp only [hopens, if_true, Bool.false_eq_true, if_false] at hopened hearlier
      omega
  cases activity with
  | idle =>
    obtain ⟨hopened, hclosed⟩ := h
    split at hcount <;> omega
  | receiving operation =>
    obtain ⟨earlier, htaken, hopened, hclosed⟩ := h
    rw [htaken] at hbracketed
    have hearlier := hbracketed.1.countP_opens
    split at hearlier <;> omega
  | running operation left =>
    obtain ⟨earlier, htaken, hopened, hclosed⟩ := h
    exact hworking htaken hopened hclosed
  | sending operation =>
    obtain ⟨earlier, htaken, hopened, hclosed⟩ := h
    exact hworking htaken hopened hclosed

/-- Every region is free, full or held by a stage, and there are result regions that were opened and not closed. -/
structure Balanced (handoff : Handoff) (held : Stage → Nat) (opened closed : Nat) : Prop where
  operands : handoff.operandFree + handoff.operandFull + held .fetch + held .execute = operandSlots
  results : handoff.resultFree + handoff.resultFull + held .result + opened = resultSlots + closed

namespace Balanced

variable {handoff after : Handoff} {held : Stage → Nat} {opened closed : Nat} {command : Command}

theorem acquire (h : Balanced handoff held opened closed) (hheld : held command.stage = 0)
    (hacquire : handoff.acquire? command = some after) :
    Balanced after (Function.update held command.stage 1) (opened + if command.opens then 1 else 0) closed := by
  obtain ⟨hoperands, hresults⟩ := h
  cases command with
  | fetch command =>
    simp only [Handoff.acquire?, Option.ite_none_left_eq_some, Option.some.injEq] at hacquire
    obtain ⟨hfree, rfl⟩ := hacquire
    change held .fetch = 0 at hheld
    constructor <;> simp [Command.stage, Command.opens]
    · omega
    · exact hresults
  | execute command =>
    simp only [Handoff.acquire?, Option.ite_none_left_eq_some, Option.some.injEq, not_or, not_and] at hacquire
    obtain ⟨⟨hfull, hfree⟩, rfl⟩ := hacquire
    change held .execute = 0 at hheld
    by_cases hclear : command.clear = true
    · have hopens : (Command.execute command).opens = true := hclear
      have := hfree hclear
      constructor <;> simp [Command.stage, hopens, hclear]
      · omega
      · omega
    · have hopens : (Command.execute command).opens = false := Bool.eq_false_iff.mpr hclear
      constructor <;> simp [Command.stage, hopens, hclear]
      · omega
      · exact hresults
  | result command =>
    simp only [Handoff.acquire?, Option.ite_none_left_eq_some, Option.some.injEq] at hacquire
    obtain ⟨hfull, rfl⟩ := hacquire
    change held .result = 0 at hheld
    constructor <;> simp [Command.stage, Command.opens]
    · exact hoperands
    · omega

theorem release (h : Balanced handoff held opened closed) (hheld : held command.stage = 1)
    (hrelease : handoff.release command = .ok after) :
    Balanced after (Function.update held command.stage 0) opened (closed + if command.closes then 1 else 0) := by
  obtain ⟨hoperands, hresults⟩ := h
  cases command with
  | fetch command =>
    simp only [Handoff.release, bind_eq_ok_iff, Word64.add_eq_ok_iff, pure_eq_ok_iff] at hrelease
    obtain ⟨_, ⟨_, rfl⟩, rfl⟩ := hrelease
    change held .fetch = 1 at hheld
    constructor <;> simp [Command.stage, Command.closes]
    · omega
    · exact hresults
  | execute command =>
    simp only [Handoff.release, bind_eq_ok_iff, Word64.add_eq_ok_iff] at hrelease
    obtain ⟨_, ⟨_, rfl⟩, hrelease⟩ := hrelease
    change held .execute = 1 at hheld
    split at hrelease
    next hcommit =>
      simp only [bind_eq_ok_iff, Word64.add_eq_ok_iff, pure_eq_ok_iff] at hrelease
      obtain ⟨_, ⟨_, rfl⟩, rfl⟩ := hrelease
      constructor <;> simp [Command.stage, Command.closes, hcommit]
      · omega
      · omega
    next hcommit =>
      rw [pure_eq_ok_iff] at hrelease
      subst hrelease
      constructor <;> simp [Command.stage, Command.closes, hcommit]
      · omega
      · exact hresults
  | result command =>
    simp only [Handoff.release, bind_eq_ok_iff, Word64.add_eq_ok_iff, pure_eq_ok_iff] at hrelease
    obtain ⟨_, ⟨_, rfl⟩, rfl⟩ := hrelease
    change held .result = 1 at hheld
    constructor <;> simp [Command.stage, Command.closes]
    · exact hoperands
    · omega

/-- Every move of a stage keeps the balance, with the regions that it opens and closes seen. -/
theorem move {watcher : Watcher} {stage : Stage} {duration : Operation → Except Fault Nat}
    {controller moved : Controller} {finished : Option Operation}
    (h : Balanced handoff held watcher.opened watcher.closed) (hheld : held stage = controller.activity.held)
    (hstage : ∀ operation, controller.activity.operation? = some operation → operation.command.stage = stage)
    (hmove : controller.Move duration handoff finished moved after) :
    Balanced after (Function.update held stage moved.activity.held)
      (watcher.observe controller.activity moved.activity).opened
      (watcher.observe controller.activity moved.activity).closed := by
  have hkept :
      Balanced handoff (Function.update held stage controller.activity.held) watcher.opened watcher.closed := by
    rwa [← hheld, Function.update_eq_self]
  cases hmove with
  | stand => rwa [Watcher.observe_self]
  | take _ hactivity =>
    rw [hactivity] at hkept ⊢
    exact hkept
  | @start operation _ _ _ hactivity hacquire =>
    rw [hactivity] at hheld hstage ⊢
    obtain rfl := hstage operation rfl
    exact h.acquire hheld hacquire
  | work _ hactivity =>
    rw [hactivity] at hkept ⊢
    exact hkept
  | finish _ hactivity =>
    rw [hactivity] at hkept ⊢
    exact hkept
  | @handOn operation _ _ hactivity hrelease =>
    rw [hactivity] at hheld hstage ⊢
    obtain rfl := hstage operation rfl
    exact h.release hheld hrelease

end Balanced

/-- A stage whose queue and sequencer hold no commands but its own. -/
structure Controller.Dedicated (stage : Stage) (controller : Controller) : Prop where
  queued : ∀ command ∈ controller.commands.toList, command.stage = stage
  inFlight : ∀ operation, controller.activity.operation? = some operation → operation.command.stage = stage

namespace Controller.Dedicated

variable {stage : Stage} {controller : Controller}

theorem move {duration : Operation → Except Fault Nat} {moved : Controller} {handoff after : Handoff}
    {finished : Option Operation} (h : controller.Dedicated stage)
    (hmove : controller.Move duration handoff finished moved after) : moved.Dedicated stage := by
  obtain ⟨hqueued, hinFlight⟩ := h
  cases hmove with
  | stand => exact ⟨hqueued, hinFlight⟩
  | take _ _ _ hcommands =>
    rw [hcommands, List.forall_mem_cons] at hqueued
    refine ⟨hqueued.2, fun operation hoperation => ?_⟩
    obtain rfl := Option.some.inj hoperation
    exact hqueued.1
  | start _ hactivity =>
    rw [hactivity] at hinFlight
    exact ⟨hqueued, hinFlight⟩
  | work _ hactivity =>
    rw [hactivity] at hinFlight
    exact ⟨hqueued, hinFlight⟩
  | finish _ hactivity =>
    rw [hactivity] at hinFlight
    exact ⟨hqueued, hinFlight⟩
  | handOn => exact ⟨hqueued, nofun⟩

theorem pushToken (h : controller.Dedicated stage) (token : Token) : (controller.pushToken token).Dedicated stage := by
  unfold Controller.pushToken
  split <;> exact ⟨h.queued, h.inFlight⟩

theorem pushCommand {command : Command} (h : controller.Dedicated command.stage) :
    (controller.pushCommand command).Dedicated command.stage := by
  unfold Controller.pushCommand
  split
  · exact ⟨h.queued, h.inFlight⟩
  · refine ⟨fun queued hqueued => ?_, h.inFlight⟩
    change queued ∈ (controller.commands.push command).toList at hqueued
    rw [Queue.toList_push, List.mem_append, List.mem_singleton] at hqueued
    rcases hqueued with hqueued | rfl
    · exact h.queued queued hqueued
    · rfl

end Controller.Dedicated

/-- A stage other than the execute stage neither opens nor closes a tile. -/
theorem Watcher.observe_counts_of_ne (watcher : Watcher) {stage : Stage} {before : Activity} (after : Activity)
    (hstage : ∀ operation, before.operation? = some operation → operation.command.stage = stage)
    (hne : stage ≠ .execute) :
    (watcher.observe before after).opened = watcher.opened ∧
      (watcher.observe before after).closed = watcher.closed := by
  have hflags (operation : Operation) (hoperation : before.operation? = some operation) :
      operation.command.opens = false ∧ operation.command.closes = false := by
    obtain rfl := hstage operation hoperation
    cases hcommand : operation.command with
    | fetch command => exact ⟨rfl, rfl⟩
    | execute command => exact absurd (by rw [hcommand]; rfl) hne
    | result command => exact ⟨rfl, rfl⟩
  cases before with
  | idle => cases after <;> exact ⟨rfl, rfl⟩
  | receiving operation => cases after <;> simp [observe, hflags operation rfl]
  | running operation left => cases after <;> exact ⟨rfl, rfl⟩
  | sending operation => cases after <;> simp [observe, hflags operation rfl]

/-- A device beside which a watcher sees what the execute stage has done since the last reset. -/
structure Watched where
  device : Device
  watcher : Watcher

namespace Watched

variable (watched : Watched)

/-- One cycle, in sight of the watcher. -/
def tick : Except Fault Watched := do
  let device ← watched.device.tick
  let before := (watched.device.stages.get .execute).activity
  return ⟨device, watched.watcher.observe before (device.stages.get .execute).activity⟩

def step : Nat → Watched → Except Fault Watched
  | 0, watched => .ok watched
  | count + 1, watched => do step count (← watched.tick)

/-- Does what the host asks for. A reset begins anew. -/
def perform (action : HostAction) : Except Fault Watched := do
  let watched ← step action.cycles watched
  let device ← action.effect watched.device
  return ⟨device, match action with
    | .reset => .fresh
    | _ => watched.watcher⟩

theorem tick_device : watched.tick.map device = watched.device.tick := by
  unfold tick
  cases watched.device.tick <;> rfl

theorem step_device (count : Nat) : (step count watched).map device = Device.step count watched.device := by
  induction count generalizing watched with
  | zero => rfl
  | succ count ih => exact map_bind_eq watched.tick_device ih

theorem perform_device (action : HostAction) : (watched.perform action).map device = watched.device.perform action := by
  rw [Device.perform_eq]
  refine map_bind_eq (watched.step_device _) fun watched => ?_
  cases action.effect watched.device <;> rfl

/-- A watcher changes nothing about what a device does. -/
theorem performAll_device (actions : List HostAction) :
    (actions.foldlM perform watched).map device = actions.foldlM Device.perform watched.device := by
  induction actions generalizing watched with
  | nil => rfl
  | cons action actions ih =>
    rw [List.foldlM_cons, List.foldlM_cons]
    exact map_bind_eq (watched.perform_device action) ih

end Watched

/-- The stages hold their own commands only, the watcher is up to date, and no region is lost. -/
structure Conserved (watched : Watched) : Prop where
  dedicated : ∀ stage, (watched.device.stages.get stage).Dedicated stage
  follows : watched.watcher.Follows (watched.device.stages.get .execute).activity
  balanced : Balanced watched.device.handoff (fun stage => (watched.device.stages.get stage).activity.held)
    watched.watcher.opened watched.watcher.closed

namespace Conserved

variable {device after : Device} {watcher : Watcher} {watched next : Watched}

/-- The turn of any stage keeps the regions. -/
theorem turn {stage : Stage} (h : Conserved ⟨device, watcher⟩) (hturn : device.Turn stage after) :
    Conserved ⟨after, watcher.observe (device.stages.get .execute).activity (after.stages.get .execute).activity⟩ := by
  cases hturn with
  | off =>
    rw [Watcher.observe_self]
    exact h
  | @on moved handoff _ _ hmove hsettle =>
    rw [Device.settle_frame _ hsettle]
    have hdedicated : ((device.stages.get stage).counted device.counting).Dedicated stage := by
      refine ⟨?_, ?_⟩
      · rw [Controller.counted_commands]
        exact (h.dedicated stage).queued
      · rw [Controller.counted_activity]
        exact (h.dedicated stage).inFlight
    have hactivity : ((device.stages.get stage).counted device.counting).activity =
        (device.stages.get stage).activity := by simp
    -- from here on the stage is only known by its activity and its own commands
    generalize (device.stages.get stage).counted device.counting = current at hmove hdedicated hactivity
    have hdedicatedAfter (other : Stage) : ((device.stages.set moved stage).get other).Dedicated other := by
      rw [PerStage.get_set]
      split
      next hother => exact hother ▸ hdedicated.move hmove
      next => exact h.dedicated other
    have hbalanced := h.balanced.move (by rw [hactivity]) hdedicated.inFlight hmove
    rw [hactivity] at hbalanced
    have hheld := device.stages.view_set_eq_update (·.activity.held) moved stage
    by_cases hexecute : stage = .execute
    · subst hexecute
      have hfollows : watcher.Follows current.activity := hactivity ▸ h.follows
      have hseen := hfollows.move hmove
      rw [hactivity] at hseen
      exact ⟨hdedicatedAfter, hseen, hheld ▸ hbalanced⟩
    · have hsame : (device.stages.set moved stage).get .execute = device.stages.get .execute :=
        PerStage.get_set_of_ne _ _ (Ne.symm hexecute)
      obtain ⟨hopened, hclosed⟩ :=
        watcher.observe_counts_of_ne moved.activity (hactivity ▸ hdedicated.inFlight) hexecute
      rw [hopened, hclosed] at hbalanced
      change Conserved ⟨_, watcher.observe _ ((device.stages.set moved stage).get .execute).activity⟩
      rw [hsame, Watcher.observe_self]
      refine ⟨hdedicatedAfter, ?_, hheld ▸ hbalanced⟩
      change watcher.Follows ((device.stages.set moved stage).get .execute).activity
      rw [hsame]
      exact h.follows

theorem turn_of_ne {stage : Stage} (h : Conserved ⟨device, watcher⟩) (hturn : device.Turn stage after)
    (hne : Stage.execute ≠ stage) : Conserved ⟨after, watcher⟩ := by
  have hkept := h.turn hturn
  rwa [hturn.stage_of_ne hne, Watcher.observe_self] at hkept

/-- The turns of the other stages go unseen, so a cycle is seen as the turn of the execute stage. -/
theorem tick (h : Conserved watched) (htick : watched.tick = .ok next) : Conserved next := by
  obtain ⟨device, hticked, hnext⟩ := bind_eq_ok_iff.mp htick
  obtain rfl := pure_eq_ok_iff.mp hnext
  obtain ⟨fetched, executed, hfetch, hexecute, hresult⟩ := (Device.tick_eq_ok_iff _).mp hticked
  have hfetchTurn := Device.tickStage_turn _ hfetch
  have hresultTurn := Device.tickStage_turn _ hresult
  have hbefore : fetched.stages.get .execute = watched.device.stages.get .execute :=
    hfetchTurn.stage_of_ne (by decide)
  have hafter : device.stages.get .execute = executed.stages.get .execute := hresultTurn.stage_of_ne (by decide)
  have hcounted : Conserved ⟨watched.device.countTick, watched.watcher⟩ := ⟨h.dedicated, h.follows, h.balanced⟩
  have hexecuted := (hcounted.turn_of_ne hfetchTurn (by decide)).turn (Device.tickStage_turn _ hexecute)
  rw [hbefore, ← hafter] at hexecuted
  exact hexecuted.turn_of_ne hresultTurn (by decide)

theorem step {count : Nat} (h : Conserved watched) (hstep : Watched.step count watched = .ok next) :
    Conserved next := by
  induction count generalizing watched with
  | zero =>
    obtain rfl := Except.ok.inj hstep
    exact h
  | succ count ih =>
    obtain ⟨ticked, htick, hstep⟩ := bind_eq_ok_iff.mp hstep
    exact ih (h.tick htick) hstep

/-- What the regions are conserved by is the sequencers and the commands in the queues. -/
theorem of_sequencers (h : Conserved ⟨device, watcher⟩) (hsequencers : after.SameSequencers device)
    (hhandoff : after.handoff = device.handoff)
    (hdedicated : ∀ stage, (after.stages.get stage).Dedicated stage) : Conserved ⟨after, watcher⟩ := by
  refine ⟨hdedicated, ?_, ?_⟩
  · rw [(hsequencers .execute).1]
    exact h.follows
  · simp only [(hsequencers _).1, hhandoff]
    exact h.balanced

theorem accept (h : Conserved ⟨device, watcher⟩) (entry : Entry) : Conserved ⟨device.accept entry, watcher⟩ := by
  have hhandoff : (device.accept entry).handoff = device.handoff := by cases entry <;> rfl
  refine h.of_sequencers (device.accept_sequencers entry) hhandoff ?_
  cases entry with
  | token stage token =>
    exact device.updateStage_keeps Controller.Dedicated (fun _ h => h.pushToken token) h.dedicated
  | command command =>
    exact device.updateStage_keeps Controller.Dedicated (fun _ h => h.pushCommand) h.dedicated

theorem stall (h : Conserved ⟨device, watcher⟩) (stage : Stage) (stalled : Bool) :
    Conserved ⟨device.stall stage stalled, watcher⟩ :=
  h.of_sequencers (device.stall_sequencers stage stalled) rfl
    (device.updateStage_keeps Controller.Dedicated (fun _ h => ⟨h.queued, h.inFlight⟩) h.dedicated)

theorem switch (h : Conserved ⟨device, watcher⟩) (counting : Bool) : Conserved ⟨device.switch counting, watcher⟩ := by
  have hhandoff : (device.switch counting).handoff = device.handoff := by
    unfold Device.switch
    split <;> rfl
  exact h.of_sequencers (device.switch_sequencers counting) hhandoff
    (device.switch_keeps Controller.Dedicated (fun _ _ h => ⟨h.queued, h.inFlight⟩) h.dedicated counting)

/-- A device at rest has all its regions. -/
theorem of_quiescent (hrest : device.Quiescent) : Conserved ⟨device, .fresh⟩ := by
  refine ⟨fun stage => ⟨?_, ?_⟩, ?_, ?_⟩
  · rw [hrest.commands]
    nofun
  · rw [hrest.activity]
    nofun
  · rw [hrest.activity]
    exact ⟨rfl, rfl⟩
  · simp only [hrest.handoff, hrest.activity]
    exact ⟨rfl, rfl⟩

/-- Whatever the host asks for keeps the regions. -/
theorem perform {action : HostAction} (h : Conserved watched) (hperform : watched.perform action = .ok next) :
    Conserved next := by
  simp only [Watched.perform, bind_eq_ok_iff] at hperform
  obtain ⟨stepped, hstep, device, heffect, hnext⟩ := hperform
  obtain rfl := pure_eq_ok_iff.mp hnext
  have hstepped : Conserved ⟨stepped.device, stepped.watcher⟩ := h.step hstep
  cases action with
  | push entry => exact Except.ok.inj heffect ▸ hstepped.accept entry
  | outstanding stage =>
    obtain ⟨_, _, rfl⟩ := map_eq_ok_iff.mp heffect
    exact hstepped
  | setCounting counting => exact Except.ok.inj heffect ▸ hstepped.switch counting
  | stall stage stalled => exact Except.ok.inj heffect ▸ hstepped.stall stage stalled
  | reset => exact Except.ok.inj heffect ▸ of_quiescent stepped.device.reset_quiescent
  | setEnabled | store =>
    exact Except.ok.inj heffect ▸ ⟨hstepped.dedicated, hstepped.follows, hstepped.balanced⟩
  | readSignature | readGeometry | poll | cycleCount | stateCycles | step =>
    exact Except.ok.inj heffect ▸ hstepped

end Conserved

/-- A device as it is made. -/
def Device.made (geometry : Geometry) (signature : Nat) (clock : Float) (capacity : Nat) : Device :=
  { (ofGeometry geometry).withCapacity capacity with signature, clock }

/-- Whatever a host does to a device, every operand region is free, full or held by the fetch or the execute stage. If
the commands taken up by the execute stage since the last reset open and close output tiles in turn, then every result
region is free, full, held by the result stage or the one that was opened and not closed. -/
theorem regions_conserved (geometry : Geometry) (signature : Nat) (clock : Float) (capacity : Nat)
    (actions : List HostAction) (device : Device)
    (h : actions.foldlM Device.perform (.made geometry signature clock capacity) = .ok device) :
    device.handoff.operandFree + device.handoff.operandFull + (device.stages.get .fetch).activity.held +
        (device.stages.get .execute).activity.held = operandSlots ∧
      ∃ watcher, actions.foldlM Watched.perform ⟨.made geometry signature clock capacity, .fresh⟩ =
          .ok ⟨device, watcher⟩ ∧
        (Bracketed watcher.taken →
          watcher.closed ≤ watcher.opened ∧ watcher.opened ≤ watcher.closed + 1 ∧
          device.handoff.resultFree + device.handoff.resultFull + (device.stages.get .result).activity.held +
            (watcher.opened - watcher.closed) = resultSlots) := by
  rw [← Watched.performAll_device ⟨.made geometry signature clock capacity, .fresh⟩] at h
  obtain ⟨⟨found, watcher⟩, hperform, rfl⟩ := map_eq_ok_iff.mp h
  have hmade : (Device.made geometry signature clock capacity).Quiescent :=
    (Device.ofGeometry_quiescent geometry).of_eq rfl rfl
  have hconserved : Conserved ⟨found, watcher⟩ :=
    foldlM_keeps (fun _ _ _ h => h.perform) (.of_quiescent hmade) hperform
  refine ⟨hconserved.balanced.operands, watcher, hperform, fun hbracketed => ?_⟩
  obtain ⟨hle, hone⟩ := hconserved.follows.opened_le hbracketed
  have hresults := hconserved.balanced.results
  refine ⟨hle, hone, ?_⟩
  dsimp only at hle hone hresults ⊢
  omega

/-- A host that sends two steps, each on an output tile of its own, only the first of which is committed, and has the
result stage write out what is committed. -/
def twoStepHost : List HostAction :=
  let token : Token := ⟨⟨0, 0, 0⟩, 1⟩
  let fetch (slot : Nat) : Command := .fetch ⟨slot, ⟨none, none⟩, 1⟩
  let execute (slot : Nat) (commit : Bool) : Command := .execute ⟨slot, slot, 0, 0, 2, 1, 1, 0, false, true, commit⟩
  let result : Command := .result ⟨0, 2048, 32, 8, 8, 256⟩
  [.setEnabled (.all true)] ++
    [fetch 0, fetch 1, execute 0 true, execute 1 false, result].flatMap
      (fun command => [.push (.token command.stage token), .push (.command command)]) ++
    [.step 7, .poll (.token .result)]

/-- While the result stage writes the first of two tiles, the second one is open: no result region is free or full. -/
theorem regions_conserved_open :
    ∃ device watcher, twoStepHost.foldlM Device.perform (.made .reference expectedSignature defaultClock 4096) =
        .ok device ∧
      twoStepHost.foldlM Watched.perform ⟨.made .reference expectedSignature defaultClock 4096, .fresh⟩ =
        .ok ⟨device, watcher⟩ ∧
      Bracketed watcher.taken ∧ device.handoff = ⟨2, 0, 0, 0⟩ ∧ (device.stages.get .result).activity.held = 1 ∧
      watcher.opened - watcher.closed = 1 ∧
      device.handoff.resultFree + device.handoff.resultFull + (device.stages.get .result).activity.held +
        (watcher.opened - watcher.closed) = resultSlots := by
  have hseen : (twoStepHost.foldlM Watched.perform
      ⟨.made .reference expectedSignature defaultClock 4096, .fresh⟩).toOption.map (fun watched =>
        (decide (Bracketed watched.watcher.taken), watched.device.handoff,
          (watched.device.stages.get .result).activity.held, watched.watcher.opened - watched.watcher.closed)) =
      some (true, ⟨2, 0, 0, 0⟩, 1, 1) := by
    decide +kernel
  obtain ⟨⟨device, watcher⟩, hwatched, hseen⟩ := Option.map_eq_some_iff.mp hseen
  simp only [Prod.mk.injEq, decide_eq_true_eq] at hseen
  obtain ⟨hbracketed, hhandoff, hheld, hopen⟩ := hseen
  have hperform : twoStepHost.foldlM Device.perform (.made .reference expectedSignature defaultClock 4096) =
      .ok device := by
    rw [← Watched.performAll_device ⟨_, .fresh⟩, toOption_eq_some_iff.mp hwatched]
    rfl
  obtain ⟨_, found, hfound, hresults⟩ := regions_conserved .reference _ _ _ _ _ hperform
  obtain rfl : watcher = found := by
    have := (toOption_eq_some_iff.mp hwatched).symm.trans hfound
    injection this with this
    injection this
  exact ⟨device, watcher, hperform, hfound, hbracketed, hhandoff, hheld, hopen, (hresults hbracketed).2.2⟩

end BitSerial
