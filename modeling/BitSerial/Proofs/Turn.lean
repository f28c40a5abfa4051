import BitSerial.Device
import BitSerial.Proofs.Outcome

/-! # The turn of a stage

A cycle of the device is a turn of each stage, in pipeline order. `Controller.Move` lists all that a turn can do to a
stage and to the regions that the stages share, and `Device.Turn` adds what a finished operation does to the rest of
the device. Nothing later looks into the definition of a cycle again.
-/

namespace BitSerial

namespace PerStage

variable {α β : Type}

theorem get_set (family : PerStage α) (value : α) (stage other : Stage) :
    (family.set value stage).get other = if other = stage then value else family.get other := by
  cases stage <;> cases other <;> rfl

@[simp] theorem get_map (f : α → β) (family : PerStage α) (stage : Stage) :
    (family.map f).get stage = f (family.get stage) := by
  cases stage <;> rfl

@[simp] theorem get_all (value : α) (stage : Stage) : (PerStage.all value).get stage = value := by
  cases stage <;> rfl

@[simp] theorem set_get_self (family : PerStage α) (stage : Stage) :
    family.set (family.get stage) stage = family := by
  cases stage <;> rfl

@[simp] theorem set_set (family : PerStage α) (first second : α) (stage : Stage) :
    (family.set first stage).set second stage = family.set second stage := by
  cases stage <;> rfl

/-- One value for each stage, given as a function. -/
def of (f : Stage → α) : PerStage α := ⟨f .fetch, f .execute, f .result⟩

@[simp] theorem get_of (f : Stage → α) (stage : Stage) : (PerStage.of f).get stage = f stage := by
  cases stage <;> rfl

theorem ext_get {first second : PerStage α} (h : ∀ stage, first.get stage = second.get stage) :
    first = second := by
  cases first
  cases second
  congr
  · exact h .fetch
  · exact h .execute
  · exact h .result

end PerStage

namespace Queue

variable {α : Type} {queue : Queue α}

theorem toList_eq_cons_of_head? {entry : α} (h : queue.head? = some entry) :
    queue.toList = entry :: queue.tail.toList := by
  rw [toList_tail]
  rw [← head?_toList] at h
  cases hlist : queue.toList with
  | nil => rw [hlist] at h; cases h
  | cons first rest =>
    rw [hlist] at h
    cases h
    rfl

theorem toList_eq_nil_of_head? (h : queue.head? = none) : queue.toList = [] := by
  rw [← head?_toList] at h
  exact List.head?_eq_none_iff.mp h

end Queue

namespace Activity

/-- How many operations a stage has taken from its queues and not handed on. -/
def taken : Activity → Nat
  | idle => 0
  | receiving _ => 1
  | running _ _ => 1
  | sending _ => 1

/-- How many operations a stage holds the regions of. -/
def held : Activity → Nat
  | idle => 0
  | receiving _ => 0
  | running _ _ => 1
  | sending _ => 1

/-- How many operations a stage is done with but has not handed on. -/
def worked : Activity → Nat
  | idle => 0
  | receiving _ => 0
  | running _ _ => 0
  | sending _ => 1

/-- A stage has taken an operation if there is one in it. -/
theorem taken_eq (activity : Activity) : activity.taken = if activity.operation?.isSome then 1 else 0 := by
  cases activity <;> rfl

theorem taken_le_one (activity : Activity) : activity.taken ≤ 1 := by
  rw [activity.taken_eq]
  split <;> omega

theorem held_le_taken (activity : Activity) : activity.held ≤ activity.taken := by
  cases activity <;> simp [held, taken]

theorem worked_le_held (activity : Activity) : activity.worked ≤ activity.held := by
  cases activity <;> simp [worked, held]

/-- A stage holds regions exactly while it works or hands on. -/
theorem held_eq_one_iff (activity : Activity) :
    activity.held = 1 ↔ activity.state = .run ∨ activity.state = .send := by
  cases activity <;> simp [held, state]

end Activity

namespace Controller

variable (controller : Controller)

/-- The stage after the cycle is counted, if counting is on. -/
def counted (counting : Bool) : Controller :=
  if counting then { controller with cycles := controller.cycles.count controller.activity.state } else controller

section Counted

variable (counting : Bool)

@[simp] theorem counted_depth : (controller.counted counting).depth = controller.depth := by
  cases counting <;> rfl

@[simp] theorem counted_tokens : (controller.counted counting).tokens = controller.tokens := by
  cases counting <;> rfl

@[simp] theorem counted_commands : (controller.counted counting).commands = controller.commands := by
  cases counting <;> rfl

@[simp] theorem counted_activity : (controller.counted counting).activity = controller.activity := by
  cases counting <;> rfl

@[simp] theorem counted_stalled : (controller.counted counting).stalled = controller.stalled := by
  cases counting <;> rfl

@[simp] theorem counted_completed : (controller.counted counting).completed = controller.completed := by
  cases counting <;> rfl

@[simp] theorem counted_overflows : (controller.counted counting).overflows = controller.overflows := by
  cases counting <;> rfl

end Counted

/-- What an idle stage lacks in its queues, or one that has taken an operation lacks among the regions. -/
def Waits (handoff : Handoff) : Prop :=
  match controller.activity with
  | .idle => controller.tokens.toList = [] ∨ controller.commands.toList = []
  | .receiving operation => handoff.acquire? operation.command = none
  | .running _ _ => False
  | .sending _ => False

/-- The operation whose work ends when the stage next moves. -/
def finishing? : Option Operation :=
  match controller.stalled, controller.activity with
  | false, .running operation left => if 1 < left then none else some operation
  | _, _ => none

/-- All that a cycle can do to a stage and the regions: the operation whose work ends in it, the stage and the regions
after it. -/
inductive Move (duration : Operation → Except Fault Nat) (controller : Controller) (handoff : Handoff) :
    Option Operation → Controller → Handoff → Prop where
  | stand (hstand : controller.stalled = true ∨ controller.Waits handoff) :
      Move duration controller handoff none controller handoff
  | take {token : Token} {command : Command} {tokens : Queue Token} {commands : Queue Command}
      (hmoves : controller.stalled = false) (hactivity : controller.activity = .idle)
      (htokens : controller.tokens.toList = token :: tokens.toList)
      (hcommands : controller.commands.toList = command :: commands.toList) :
      Move duration controller handoff none
        { controller with tokens, commands, activity := .receiving ⟨command, token⟩ } handoff
  | start {operation : Operation} {cycles : Nat} {after : Handoff}
      (hmoves : controller.stalled = false) (hactivity : controller.activity = .receiving operation)
      (hacquire : handoff.acquire? operation.command = some after) (hduration : duration operation = .ok cycles) :
      Move duration controller handoff none
        { controller with activity := .running operation (max cycles 1) } after
  | work {operation : Operation} {left : Nat}
      (hmoves : controller.stalled = false) (hactivity : controller.activity = .running operation left)
      (hleft : 1 < left) :
      Move duration controller handoff none { controller with activity := .running operation (left - 1) } handoff
  | finish {operation : Operation} {left : Nat}
      (hmoves : controller.stalled = false) (hactivity : controller.activity = .running operation left)
      (hleft : left ≤ 1) :
      Move duration controller handoff (some operation) { controller with activity := .sending operation } handoff
  | handOn {operation : Operation} {after : Handoff}
      (hmoves : controller.stalled = false) (hactivity : controller.activity = .sending operation)
      (hrelease : handoff.release operation.command = .ok after) :
      Move duration controller handoff none
        { controller with activity := .idle, completed := controller.completed + 1 } after

/-- A cycle counts itself and then moves the stage. -/
theorem tick_move {handoff : Handoff} {counting : Bool} {duration : Operation → Except Fault Nat} {found : Advance}
    (h : controller.tick handoff counting duration = .ok found) :
    Move duration (controller.counted counting) handoff found.finished found.controller found.handoff := by
  change (if (controller.counted counting).stalled then _ else _) = _ at h
  split at h
  next hstalled =>
    cases h
    exact .stand (.inl hstalled)
  next hstalled =>
    have hmoves : (controller.counted counting).stalled = false := by simpa using hstalled
    change (controller.counted counting).advance handoff duration = .ok found at h
    generalize controller.counted counting = current at h hmoves ⊢
    unfold advance at h
    cases hactivity : current.activity with
    | idle =>
      rw [hactivity] at h
      cases htoken : current.tokens.head? with
      | none =>
        rw [htoken] at h
        cases h
        refine .stand (.inr ?_)
        simp [Waits, hactivity, Queue.toList_eq_nil_of_head? htoken]
      | some token =>
        cases hcommand : current.commands.head? with
        | none =>
          rw [htoken, hcommand] at h
          cases h
          refine .stand (.inr ?_)
          simp [Waits, hactivity, Queue.toList_eq_nil_of_head? hcommand]
        | some command =>
          rw [htoken, hcommand] at h
          cases h
          exact .take hmoves hactivity (Queue.toList_eq_cons_of_head? htoken)
            (Queue.toList_eq_cons_of_head? hcommand)
    | receiving operation =>
      rw [hactivity] at h
      cases hacquire : handoff.acquire? operation.command with
      | none =>
        simp only [hacquire] at h
        cases h
        refine .stand (.inr ?_)
        simp [Waits, hactivity, hacquire]
      | some after =>
        simp only [hacquire] at h
        obtain ⟨cycles, hduration, h⟩ := bind_eq_ok_iff.mp h
        cases h
        exact .start hmoves hactivity hacquire hduration
    | running operation left =>
      simp only [hactivity] at h
      split at h
      next hleft =>
        cases h
        exact .work hmoves hactivity hleft
      next hleft =>
        cases h
        exact .finish hmoves hactivity (Nat.le_of_not_lt hleft)
    | sending operation =>
      simp only [hactivity] at h
      obtain ⟨after, hrelease, h⟩ := bind_eq_ok_iff.mp h
      cases h
      exact .handOn hmoves hactivity hrelease

/-- Which operation finishes in a move can be told before it. -/
theorem Move.finished_eq {duration : Operation → Except Fault Nat} {handoff after : Handoff}
    {finished : Option Operation} {moved : Controller}
    (h : Move duration controller handoff finished moved after) : finished = controller.finishing? := by
  cases h with
  | stand hstand =>
    rcases hstand with hstalled | hwaits
    · simp [finishing?, hstalled]
    · unfold Waits at hwaits
      unfold finishing?
      cases controller.stalled <;> cases hactivity : controller.activity <;> simp_all
  | take hmoves hactivity => simp [finishing?, hactivity]
  | start hmoves hactivity => simp [finishing?, hactivity]
  | work hmoves hactivity hleft => simp [finishing?, hmoves, hactivity, hleft]
  | finish hmoves hactivity hleft => simp [finishing?, hmoves, hactivity, Nat.not_lt.mpr hleft]
  | handOn hmoves hactivity => simp [finishing?, hactivity]

/-- A move changes neither the depth nor the stall of a stage, and drops nothing. -/
theorem Move.frame {duration : Operation → Except Fault Nat} {handoff after : Handoff}
    {finished : Option Operation} {moved : Controller}
    (h : Move duration controller handoff finished moved after) :
    moved.depth = controller.depth ∧ moved.stalled = controller.stalled ∧
      moved.overflows = controller.overflows := by
  cases h <;> exact ⟨rfl, rfl, rfl⟩

/-- A move fills no queue. -/
theorem Move.queues_le {duration : Operation → Except Fault Nat} {handoff after : Handoff}
    {finished : Option Operation} {moved : Controller}
    (h : Move duration controller handoff finished moved after) :
    moved.tokens.length ≤ controller.tokens.length ∧ moved.commands.length ≤ controller.commands.length := by
  cases h with
  | take _ _ htokens hcommands =>
    rw [← Queue.length_toList controller.tokens, ← Queue.length_toList controller.commands, htokens, hcommands,
      List.length_cons, List.length_cons, Queue.length_toList, Queue.length_toList]
    exact ⟨Nat.le_succ _, Nat.le_succ _⟩
  | stand => exact ⟨Nat.le_refl _, Nat.le_refl _⟩
  | start => exact ⟨Nat.le_refl _, Nat.le_refl _⟩
  | work => exact ⟨Nat.le_refl _, Nat.le_refl _⟩
  | finish => exact ⟨Nat.le_refl _, Nat.le_refl _⟩
  | handOn => exact ⟨Nat.le_refl _, Nat.le_refl _⟩

theorem finishing?_operation {operation : Operation} (h : controller.finishing? = some operation) :
    controller.activity.operation? = some operation := by
  unfold finishing? at h
  cases hactivity : controller.activity <;> cases hstalled : controller.stalled <;>
    simp_all [Activity.operation?]

/-- No operation finishes while another one has still to be handed on. -/
theorem finishing?_worked {operation : Operation} (h : controller.finishing? = some operation) :
    controller.activity.worked = 0 := by
  unfold finishing? at h
  cases hactivity : controller.activity <;> simp_all [Activity.worked]

/-- A move counts the operation that finishes in it, and no other. -/
theorem Move.completed_add_worked {duration : Operation → Except Fault Nat} {handoff after : Handoff}
    {finished : Option Operation} {moved : Controller}
    (h : Move duration controller handoff finished moved after) :
    moved.completed + moved.activity.worked =
      controller.completed + controller.activity.worked + finished.toList.length := by
  cases h with
  | stand => rfl
  | take _ hactivity => rw [hactivity]; rfl
  | start _ hactivity => rw [hactivity]; rfl
  | work _ hactivity => rw [hactivity]; rfl
  | finish _ hactivity => rw [hactivity]; rfl
  | handOn _ hactivity => rw [hactivity]; rfl

end Controller

namespace Device

variable (device : Device)

/-- The device after a stage has moved. -/
def withMove (stage : Stage) (controller : Controller) (handoff : Handoff) : Device :=
  { device with stages := device.stages.set controller stage, handoff }

/-- What the end of an operation, if there is one, does to the rest of the device. -/
def settle : Option Operation → Except Fault Device
  | none => .ok device
  | some operation => device.complete operation

/-- The operation whose work ends in the next turn of a stage. -/
def finishing? (stage : Stage) : Option Operation :=
  if device.enabled.get stage then (device.stages.get stage).finishing? else none

/-- All that the turn of a stage can do to a device. -/
inductive Turn (device : Device) (stage : Stage) : Device → Prop where
  | off (hoff : device.enabled.get stage = false) : Turn device stage device
  | on {moved : Controller} {handoff : Handoff} {after : Device} (hon : device.enabled.get stage = true)
      (hmove : Controller.Move device.duration ((device.stages.get stage).counted device.counting) device.handoff
        (device.finishing? stage) moved handoff)
      (hsettle : (device.withMove stage moved handoff).settle (device.finishing? stage) = .ok after) :
      Turn device stage after

theorem finishing?_counted (controller : Controller) (counting : Bool) :
    (controller.counted counting).finishing? = controller.finishing? := by
  simp [Controller.finishing?]

theorem finishing?_operation {stage : Stage} {operation : Operation} (h : device.finishing? stage = some operation) :
    (device.stages.get stage).activity.operation? = some operation := by
  unfold finishing? at h
  split at h
  · exact Controller.finishing?_operation _ h
  · cases h

theorem tickStage_turn {stage : Stage} {after : Device} (h : device.tickStage stage = .ok after) :
    device.Turn stage after := by
  unfold tickStage at h
  split at h
  next hon =>
    obtain ⟨found, htick, h⟩ := bind_eq_ok_iff.mp h
    have hmove := Controller.tick_move _ htick
    have hfinished : found.finished = device.finishing? stage := by
      rw [hmove.finished_eq, finishing?_counted, finishing?, if_pos hon]
    rw [hfinished] at hmove
    refine .on hon hmove ?_
    rw [← hfinished]
    cases hcase : found.finished with
    | none =>
      rw [hcase] at h
      exact h
    | some operation =>
      rw [hcase] at h
      exact h
  next hoff =>
    cases h
    exact .off (by simpa using hoff)

/-- The end of an operation reaches nothing but memory and statistics. -/
theorem complete_frame {operation : Operation} {after : Device} (h : device.complete operation = .ok after) :
    after = { device with memory := after.memory, statistics := after.statistics } := by
  unfold complete at h
  cases hcommand : operation.command with
  | fetch command =>
    simp only [hcommand, bind_eq_ok_iff] at h
    obtain ⟨bytes, _, total, _, h⟩ := h
    cases h
    rfl
  | execute command =>
    simp only [hcommand] at h
    cases h
    rfl
  | result command =>
    simp only [hcommand, bind_eq_ok_iff] at h
    obtain ⟨memory, _, bytes, _, total, _, h⟩ := h
    cases h
    rfl

theorem settle_frame {finished : Option Operation} {after : Device} (h : device.settle finished = .ok after) :
    after = { device with memory := after.memory, statistics := after.statistics } := by
  cases finished with
  | none =>
    cases h
    rfl
  | some operation => exact device.complete_frame h

/-- A device without queued or unfinished work, all of whose regions are free. -/
structure Quiescent : Prop where
  tokens : ∀ stage, (device.stages.get stage).tokens.toList = []
  commands : ∀ stage, (device.stages.get stage).commands.toList = []
  activity : ∀ stage, (device.stages.get stage).activity = .idle
  handoff : device.handoff = .idle

/-- Rest is a matter of the stages and the regions. -/
theorem Quiescent.of_eq {device after : Device} (h : device.Quiescent) (hstages : after.stages = device.stages)
    (hhandoff : after.handoff = device.handoff) : after.Quiescent :=
  ⟨hstages ▸ h.tokens, hstages ▸ h.commands, hstages ▸ h.activity, hhandoff.trans h.handoff⟩

theorem Quiescent.countTick {device : Device} (h : device.Quiescent) : device.countTick.Quiescent := h.of_eq rfl rfl

/-- A device at rest whose stages and cycle counting are off. -/
structure Off : Prop where
  quiescent : device.Quiescent
  enabled : device.enabled = .all false
  counting : device.counting = false

/-- What is in memory does not disturb a device at rest. -/
theorem Off.withMemory {device : Device} (h : device.Off) (memory : Memory) : ({ device with memory } : Device).Off :=
  ⟨h.quiescent.of_eq rfl rfl, h.enabled, h.counting⟩

theorem ofGeometry_quiescent (geometry : Geometry) : (ofGeometry geometry).Quiescent := by
  constructor
  case handoff => rfl
  all_goals
    intro stage
    cases stage <;> rfl

theorem reset_quiescent : device.reset.Quiescent := by
  constructor
  case handoff => rfl
  all_goals
    intro stage
    cases stage <;> rfl

namespace Turn

variable {device : Device} {stage other : Stage} {after : Device}

theorem stage_of_ne (h : device.Turn stage after) (hother : other ≠ stage) :
    after.stages.get other = device.stages.get other := by
  cases h with
  | off => rfl
  | on _ _ hsettle =>
    rw [settle_frame _ hsettle]
    exact PerStage.get_set_of_ne _ _ hother

theorem frame (h : device.Turn stage after) (other : Stage) :
    (after.stages.get other).depth = (device.stages.get other).depth ∧
      (after.stages.get other).stalled = (device.stages.get other).stalled ∧
      (after.stages.get other).overflows = (device.stages.get other).overflows := by
  cases h with
  | off => exact ⟨rfl, rfl, rfl⟩
  | on _ hmove hsettle =>
    rw [settle_frame _ hsettle]
    simp only [withMove, PerStage.get_set]
    split
    next hother =>
      rw [hother]
      simpa using hmove.frame
    next => exact ⟨rfl, rfl, rfl⟩

theorem queues_le (h : device.Turn stage after) (other : Stage) :
    (after.stages.get other).tokens.length ≤ (device.stages.get other).tokens.length ∧
      (after.stages.get other).commands.length ≤ (device.stages.get other).commands.length := by
  cases h with
  | off => exact ⟨Nat.le_refl _, Nat.le_refl _⟩
  | on _ hmove hsettle =>
    rw [settle_frame _ hsettle]
    simp only [withMove, PerStage.get_set]
    split
    next hother =>
      rw [hother]
      simpa using hmove.queues_le
    next => exact ⟨Nat.le_refl _, Nat.le_refl _⟩

theorem completed_add_worked (h : device.Turn stage after) :
    (after.stages.get stage).completed + (after.stages.get stage).activity.worked =
      (device.stages.get stage).completed + (device.stages.get stage).activity.worked +
        (device.finishing? stage).toList.length := by
  cases h with
  | off hoff => simp [finishing?, hoff]
  | on _ hmove hsettle =>
    rw [settle_frame _ hsettle]
    simpa [withMove] using hmove.completed_add_worked

/-- A turn switches nothing on or off, and the device stays what it is. -/
theorem switches (h : device.Turn stage after) :
    after.enabled = device.enabled ∧ after.counting = device.counting ∧ after.geometry = device.geometry := by
  cases h with
  | off => exact ⟨rfl, rfl, rfl⟩
  | on _ _ hsettle =>
    rw [settle_frame _ hsettle]
    exact ⟨rfl, rfl, rfl⟩

theorem quiescent (h : device.Turn stage after) (hrest : device.Quiescent) : after.Quiescent := by
  cases h with
  | off => exact hrest
  | on _ hmove hsettle =>
    rw [settle_frame _ hsettle]
    have hidle := hrest.activity stage
    have hempty := hrest.tokens stage
    generalize device.finishing? stage = finished at hmove
    cases hmove with
    | stand =>
      refine ⟨fun other => ?_, fun other => ?_, fun other => ?_, hrest.handoff⟩
      · rw [withMove, PerStage.get_set]
        split
        next hother => rw [Controller.counted_tokens, hempty]
        next => exact hrest.tokens other
      · rw [withMove, PerStage.get_set]
        split
        next hother => rw [Controller.counted_commands, hrest.commands stage]
        next => exact hrest.commands other
      · rw [withMove, PerStage.get_set]
        split
        next hother => rw [Controller.counted_activity, hidle]
        next => exact hrest.activity other
    | take _ _ htokens => rw [Controller.counted_tokens, hempty] at htokens; cases htokens
    | start _ hactivity => rw [Controller.counted_activity, hidle] at hactivity; cases hactivity
    | work _ hactivity => rw [Controller.counted_activity, hidle] at hactivity; cases hactivity
    | finish _ hactivity => rw [Controller.counted_activity, hidle] at hactivity; cases hactivity
    | handOn _ hactivity => rw [Controller.counted_activity, hidle] at hactivity; cases hactivity

theorem off_of_off (h : device.Turn stage after) (hoff : device.Off) : after.Off :=
  ⟨h.quiescent hoff.quiescent, h.switches.1.trans hoff.enabled, h.switches.2.1.trans hoff.counting⟩

theorem worked_of_finishing {operation : Operation} (hfinishing : device.finishing? stage = some operation) :
    (device.stages.get stage).activity.worked = 0 := by
  unfold finishing? at hfinishing
  split at hfinishing
  · exact Controller.finishing?_worked _ hfinishing
  · cases hfinishing

end Turn

/-- A cycle is a turn of each stage, one after the other. -/
theorem tick_eq_ok_iff {after : Device} :
    device.tick = .ok after ↔ ∃ fetched executed, device.countTick.tickStage .fetch = .ok fetched ∧
      fetched.tickStage .execute = .ok executed ∧ executed.tickStage .result = .ok after := by
  unfold tick
  simp only [bind_eq_ok_iff]
  constructor
  · rintro ⟨fetched, hfetch, executed, hexecute, hresult⟩
    exact ⟨fetched, executed, hfetch, hexecute, hresult⟩
  · rintro ⟨fetched, executed, hfetch, hexecute, hresult⟩
    exact ⟨fetched, hfetch, executed, hexecute, hresult⟩

theorem tick_keeps (keeps : Device → Prop) (hcount : ∀ device, keeps device → keeps device.countTick)
    (hturn : ∀ device stage after, keeps device → Turn device stage after → keeps after) {after : Device}
    (h : keeps device) (htick : device.tick = .ok after) : keeps after := by
  obtain ⟨fetched, executed, hfetch, hexecute, hresult⟩ := device.tick_eq_ok_iff.mp htick
  have hfetched := hturn _ _ _ (hcount _ h) (tickStage_turn _ hfetch)
  have hexecuted := hturn _ _ _ hfetched (tickStage_turn _ hexecute)
  exact hturn _ _ _ hexecuted (tickStage_turn _ hresult)

/-- With all stages off, a cycle is only counted. -/
theorem tick_of_disabled (h : device.enabled = .all false) : device.tick = .ok device.countTick := by
  have hstage (stage : Stage) : device.countTick.tickStage stage = .ok device.countTick := by
    apply if_neg
    change ¬device.enabled.get stage = true
    rw [h, PerStage.get_all]
    exact Bool.false_ne_true
  exact device.tick_eq_ok_iff.mpr ⟨_, _, hstage .fetch, hstage .execute, hstage .result⟩

/-- What a push does after its cycle. -/
def accept (entry : Entry) : Device :=
  match entry with
  | .token stage token =>
    let statistics := { device.statistics with tokensPushed := device.statistics.tokensPushed + 1 }
    { device.updateStage stage (·.pushToken token) with statistics }
  | .command command =>
    let statistics := { device.statistics with commandsPushed := device.statistics.commandsPushed + 1 }
    { device.updateStage command.stage (·.pushCommand command) with statistics }

theorem push_eq (entry : Entry) : device.push entry = device.tick >>= fun device => .ok (device.accept entry) := by
  cases entry <;> rfl

theorem outstanding_eq (stage : Stage) :
    device.outstanding stage =
      device.tick >>= fun device => (device.stages.get stage).outstanding.map (·, device) := by
  unfold outstanding
  congr 1

/-- What turning counting on or off does after its cycle. -/
def switch (counting : Bool) : Device :=
  let device :=
    if counting && !device.counting then
      { device with cycles := 0, stages := device.stages.map (·.clearCycles) }
    else device
  { device with counting }

def full : Stream → Bool
  | .token stage => (device.stages.get stage).tokensFull
  | .command stage => (device.stages.get stage).commandsFull

/-- A push into a queue that has room drops nothing. -/
theorem accept_frame {entry : Entry} (hroom : device.full entry.stream = false) (stage : Stage) :
    ((device.accept entry).stages.get stage).depth = (device.stages.get stage).depth ∧
      ((device.accept entry).stages.get stage).stalled = (device.stages.get stage).stalled ∧
      ((device.accept entry).stages.get stage).overflows = (device.stages.get stage).overflows := by
  cases entry with
  | token pushed token =>
    simp only [accept, updateStage, PerStage.get_set]
    split
    next hstage =>
      have hroom : (device.stages.get pushed).tokensFull = false := hroom
      rw [hstage, Controller.pushToken, hroom]
      exact ⟨rfl, rfl, rfl⟩
    next => exact ⟨rfl, rfl, rfl⟩
  | command command =>
    simp only [accept, updateStage, PerStage.get_set]
    split
    next hstage =>
      have hroom : (device.stages.get command.stage).commandsFull = false := hroom
      rw [hstage, Controller.pushCommand, hroom]
      exact ⟨rfl, rfl, rfl⟩
    next => exact ⟨rfl, rfl, rfl⟩

/-- What a change of one stage keeps of every stage. -/
theorem updateStage_keeps (keeps : Stage → Controller → Prop) {stage : Stage} {f : Controller → Controller}
    (hf : ∀ controller, keeps stage controller → keeps stage (f controller))
    (h : ∀ other, keeps other (device.stages.get other)) (other : Stage) :
    keeps other ((device.updateStage stage f).stages.get other) := by
  rw [updateStage, PerStage.get_set]
  split
  next hother => exact hother ▸ hf _ (h stage)
  next => exact h other

/-- What pushes keep of a stage, taking an entry keeps of every stage. -/
theorem accept_keeps (keeps : Stage → Controller → Prop)
    (htoken : ∀ stage controller token, keeps stage controller → keeps stage (controller.pushToken token))
    (hcommand : ∀ stage controller command, keeps stage controller → keeps stage (controller.pushCommand command))
    (h : ∀ stage, keeps stage (device.stages.get stage)) (entry : Entry) (stage : Stage) :
    keeps stage ((device.accept entry).stages.get stage) := by
  cases entry with
  | token pushed token => exact device.updateStage_keeps keeps (fun controller => htoken _ controller token) h stage
  | command command => exact device.updateStage_keeps keeps (fun controller => hcommand _ controller command) h stage

/-- Turning counting on or off at most clears the counters of the stages. -/
theorem switch_keeps (keeps : Stage → Controller → Prop)
    (hclear : ∀ stage controller, keeps stage controller → keeps stage controller.clearCycles)
    (h : ∀ stage, keeps stage (device.stages.get stage)) (counting : Bool) (stage : Stage) :
    keeps stage ((device.switch counting).stages.get stage) := by
  unfold switch
  split
  · rw [PerStage.get_map]
    exact hclear _ _ (h stage)
  · exact h stage

theorem switch_frame (counting : Bool) :
    (device.switch counting).geometry = device.geometry ∧ (device.switch counting).enabled = device.enabled ∧
      (device.switch counting).memory = device.memory ∧ (device.switch counting).statistics = device.statistics := by
  unfold switch
  split <;> exact ⟨rfl, rfl, rfl, rfl⟩

/-- Stages that stand where those of another device stand, whatever is queued. -/
def SameSequencers (other : Device) : Prop :=
  ∀ stage, (device.stages.get stage).activity = (other.stages.get stage).activity ∧
    (device.stages.get stage).completed = (other.stages.get stage).completed

/-- What leaves the sequencer of a stage alone leaves those of all stages alone. -/
theorem updateStage_sequencers (stage : Stage) {f : Controller → Controller}
    (hf : ∀ controller, (f controller).activity = controller.activity ∧ (f controller).completed = controller.completed) :
    (device.updateStage stage f).SameSequencers device := by
  refine device.updateStage_keeps (fun other controller => controller.activity = (device.stages.get other).activity ∧
    controller.completed = (device.stages.get other).completed) (fun controller h => ?_) fun _ => ⟨rfl, rfl⟩
  exact ⟨(hf controller).1.trans h.1, (hf controller).2.trans h.2⟩

theorem stall_sequencers (stage : Stage) (stalled : Bool) :
    (device.stall stage stalled).SameSequencers device :=
  device.updateStage_sequencers stage fun _ => ⟨rfl, rfl⟩

theorem accept_sequencers (entry : Entry) : (device.accept entry).SameSequencers device := by
  cases entry with
  | token stage token =>
    refine device.updateStage_sequencers stage (f := (·.pushToken token)) fun controller => ?_
    unfold Controller.pushToken
    split <;> exact ⟨rfl, rfl⟩
  | command command =>
    refine device.updateStage_sequencers command.stage (f := (·.pushCommand command)) fun controller => ?_
    unfold Controller.pushCommand
    split <;> exact ⟨rfl, rfl⟩

theorem switch_sequencers (counting : Bool) : (device.switch counting).SameSequencers device := by
  refine device.switch_keeps (fun stage controller => controller.activity = (device.stages.get stage).activity ∧
    controller.completed = (device.stages.get stage).completed) (fun _ _ h => h) (fun _ => ⟨rfl, rfl⟩) counting

/-- Freezing and releasing a stage does not disturb a device at rest. -/
theorem Off.stall {device : Device} (h : device.Off) (stage : Stage) (stalled : Bool) :
    (device.stall stage stalled).Off := by
  have hkeeps (keeps : Controller → Prop)
      (hstall : ∀ controller, keeps controller → keeps (controller.setStalled stalled))
      (hstages : ∀ other, keeps (device.stages.get other)) (other : Stage) :
      keeps ((device.stall stage stalled).stages.get other) :=
    device.updateStage_keeps (fun _ => keeps) hstall hstages other
  exact ⟨⟨hkeeps (·.tokens.toList = []) (fun _ h => h) h.quiescent.tokens,
    hkeeps (·.commands.toList = []) (fun _ h => h) h.quiescent.commands,
    hkeeps (·.activity = .idle) (fun _ h => h) h.quiescent.activity, h.quiescent.handoff⟩, h.enabled, h.counting⟩

theorem stall_depth (stage other : Stage) (stalled : Bool) :
    ((device.stall stage stalled).stages.get other).depth = (device.stages.get other).depth :=
  device.updateStage_keeps (f := (·.setStalled stalled))
    (fun other controller => controller.depth = (device.stages.get other).depth) (fun _ h => h) (fun _ => rfl) other

theorem reset_depth (stage : Stage) : (device.reset.stages.get stage).depth = (device.stages.get stage).depth := by
  rw [reset, PerStage.get_map]
  rfl

theorem reset_off : device.reset.Off := ⟨device.reset_quiescent, rfl, rfl⟩

/-- The cycles that an operation works depend on the geometry alone. -/
theorem duration_eq {device other : Device} (h : device.geometry = other.geometry) :
    device.duration = other.duration := by
  funext operation
  simp only [duration, h]

end Device

end BitSerial
