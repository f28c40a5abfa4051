import BitSerial.Session
import BitSerial.Proofs.Turn

/-! # Recording what a device does

A recorded device keeps a trail of the turns of its stages and of its resets, each with the device as it was before.
The recorder only watches: whatever is streamed through a recorded device is streamed through the device
itself, with the same outcome. What a run does inside can thus be read off the trail of the recorded run.
-/

namespace BitSerial

/-- Something that happens to a device. -/
inductive Event where
  /-- A stage has its turn. -/
  | turn (stage : Stage) (device : Device)
  | reset (device : Device)

def Event.device : Event → Device
  | .turn _ device => device
  | .reset device => device

/-- The operation of a stage whose work ends with an event. -/
def Event.finished? (stage : Stage) : Event → Option Operation
  | .turn other device => if other = stage then device.finishing? stage else none
  | .reset _ => none

/-- The operations of a stage whose work ended along a trail, in order. -/
def finishedOf (stage : Stage) (trail : List Event) : List Operation := trail.filterMap (Event.finished? stage)

theorem finishedOf_append (stage : Stage) (trail later : List Event) :
    finishedOf stage (trail ++ later) = finishedOf stage trail ++ finishedOf stage later :=
  List.filterMap_append

theorem finishedOf_turn (stage other : Stage) (device : Device) :
    finishedOf stage [.turn other device] = if other = stage then (device.finishing? stage).toList else [] := by
  simp only [finishedOf, List.filterMap_cons, List.filterMap_nil, Event.finished?]
  split
  next hnone =>
    split
    next hother => rw [if_pos hother] at hnone; rw [hnone]; rfl
    next => rfl
  next operation hsome =>
    split
    next hother => rw [if_pos hother] at hsome; rw [hsome]; rfl
    next hother => rw [if_neg hother] at hsome; cases hsome

/-- A device with the trail of what happened to it, in order. -/
structure Recorded where
  device : Device
  trail : List Event

namespace Recorded

variable (recorded : Recorded)

/-- The turn of a stage is recorded before it happens. -/
def turn (stage : Stage) : Except Fault Recorded := do
  let device ← recorded.device.tickStage stage
  return ⟨device, recorded.trail ++ [.turn stage recorded.device]⟩

def countTick : Recorded := { recorded with device := recorded.device.countTick }

/-- One cycle, turn by turn. -/
def tick : Except Fault Recorded := do
  let recorded ← recorded.countTick.turn .fetch
  let recorded ← recorded.turn .execute
  recorded.turn .result

/-- An access to the device, with its cycle recorded. -/
def observe {α : Type} (access : Device → Except Fault (α × Device)) : Except Fault (α × Recorded) := do
  let ticked ← recorded.tick
  let (answer, device) ← access recorded.device
  return (answer, { ticked with device })

/-- An access without an answer. -/
def change (access : Device → Except Fault Device) : Except Fault Recorded := do
  let ticked ← recorded.tick
  let device ← access recorded.device
  return { ticked with device }

instance : Accelerator Recorded where
  poll stream recorded := recorded.observe (·.poll stream)
  push entry recorded := recorded.change (·.push entry)
  outstanding stage recorded := recorded.observe (·.outstanding stage)
  setEnabled enabled recorded := recorded.change (·.setEnabled enabled)
  setCounting counting recorded := recorded.change (·.setCounting counting)
  stateCycles stage state recorded := recorded.observe (·.stateCycles stage state)
  cycleCount recorded := recorded.observe (·.cycleCount)
  reset recorded := ⟨recorded.device.reset, recorded.trail ++ [.reset recorded.device]⟩

theorem turn_device (stage : Stage) : (recorded.turn stage).map device = recorded.device.tickStage stage := by
  unfold turn
  cases recorded.device.tickStage stage <;> rfl

theorem tick_device : recorded.tick.map device = recorded.device.tick := by
  unfold tick Device.tick
  refine map_bind_eq (turn_device _ _) fun recorded => ?_
  exact map_bind_eq (turn_device _ _) fun recorded => turn_device _ _

theorem turn_eq_ok_iff {stage : Stage} {after : Recorded} :
    recorded.turn stage = .ok after ↔ recorded.device.tickStage stage = .ok after.device ∧
      after.trail = recorded.trail ++ [.turn stage recorded.device] := by
  simp only [turn, bind_eq_ok_iff, pure_eq_ok_iff]
  constructor
  · rintro ⟨device, hturn, rfl⟩
    exact ⟨hturn, rfl⟩
  · rintro ⟨hturn, htrail⟩
    refine ⟨_, hturn, ?_⟩
    rw [← htrail]

theorem tick_eq_ok_iff {after : Recorded} :
    recorded.tick = .ok after ↔ ∃ fetched executed, recorded.countTick.turn .fetch = .ok fetched ∧
      fetched.turn .execute = .ok executed ∧ executed.turn .result = .ok after := by
  simp only [tick, bind_eq_ok_iff]
  constructor
  · rintro ⟨fetched, hfetch, executed, hexecute, hresult⟩
    exact ⟨fetched, executed, hfetch, hexecute, hresult⟩
  · rintro ⟨fetched, executed, hfetch, hexecute, hresult⟩
    exact ⟨fetched, hfetch, executed, hexecute, hresult⟩

/-- The cycle of an access is the one that is recorded. -/
theorem observe_tick {α : Type} (rest : Device → Except Fault (α × Device)) :
    (recorded.observe fun device => device.tick >>= rest) = (do
      let ticked ← recorded.tick
      let (answer, device) ← rest ticked.device
      return (answer, { ticked with device })) := by
  have hdevice := recorded.tick_device
  unfold observe
  cases hticked : recorded.tick with
  | error cause => rfl
  | ok ticked =>
    rw [hticked] at hdevice
    simp only [← hdevice]
    rfl

theorem change_tick (rest : Device → Except Fault Device) :
    (recorded.change fun device => device.tick >>= rest) = (do
      let ticked ← recorded.tick
      let device ← rest ticked.device
      return { ticked with device }) := by
  have hdevice := recorded.tick_device
  unfold change
  cases hticked : recorded.tick with
  | error cause => rfl
  | ok ticked =>
    rw [hticked] at hdevice
    simp only [← hdevice]
    rfl

/-- Observing an access makes no difference to it. -/
theorem observe_device {α : Type} (rest : Device → Except Fault (α × Device)) :
    (recorded.observe fun device => device.tick >>= rest).map (fun (answer, recorded) => (answer, recorded.device)) =
      recorded.device.tick >>= rest := by
  rw [observe_tick]
  refine map_bind_eq recorded.tick_device fun ticked => ?_
  cases rest ticked.device <;> rfl

theorem change_device (rest : Device → Except Fault Device) :
    (recorded.change fun device => device.tick >>= rest).map device = recorded.device.tick >>= rest := by
  rw [change_tick]
  refine map_bind_eq recorded.tick_device fun ticked => ?_
  cases rest ticked.device <;> rfl

section Accesses

variable {recorded after : Recorded}

/-- The cycle of a recorded device is a cycle of the device. -/
theorem device_tick (h : recorded.tick = .ok after) : recorded.device.tick = .ok after.device := by
  rw [← tick_device, h]
  rfl

theorem tick_keeps (keeps : Device → Prop) (hcount : ∀ device, keeps device → keeps device.countTick)
    (hturn : ∀ device stage after, keeps device → Device.Turn device stage after → keeps after)
    (h : keeps recorded.device) (htick : recorded.tick = .ok after) : keeps after.device :=
  recorded.device.tick_keeps keeps hcount hturn h (device_tick htick)

/-- Reading a register is a cycle. -/
theorem observe_eq_ok_iff {α : Type} (read : Device → Except Fault α) {answer : α} :
    (recorded.observe fun device => device.tick >>= fun device => (read device).map (·, device)) =
        .ok (answer, after) ↔
      recorded.tick = .ok after ∧ read after.device = .ok answer := by
  simp only [observe_tick, bind_eq_ok_iff, pure_eq_ok_iff, map_eq_ok_iff, Prod.exists, Prod.mk.injEq]
  constructor
  · rintro ⟨ticked, hticked, _, _, ⟨value, hvalue, rfl, rfl⟩, rfl, rfl⟩
    exact ⟨hticked, hvalue⟩
  · rintro ⟨hticked, hvalue⟩
    exact ⟨after, hticked, answer, _, ⟨answer, hvalue, rfl, rfl⟩, rfl, rfl⟩

/-- Writing a register is a cycle with a change after it. -/
theorem change_eq_ok_iff {f : Device → Device} :
    (recorded.change fun device => device.tick >>= fun device => .ok (f device)) = .ok after ↔
      ∃ ticked, recorded.tick = .ok ticked ∧ after = { ticked with device := f ticked.device } := by
  simp only [change_tick, bind_eq_ok_iff, pure_eq_ok_iff, Except.ok.injEq, exists_eq_left']

/-- Reading a register that always has a value is a cycle. -/
theorem observe_value_eq_ok_iff {α : Type} (f : Device → α) {answer : α} :
    (recorded.observe fun device => device.tick >>= fun device => .ok (f device, device)) = .ok (answer, after) ↔
      recorded.tick = .ok after ∧ f after.device = answer := by
  have hread := @observe_eq_ok_iff recorded after α (fun device => .ok (f device)) answer
  rwa [Except.ok.injEq] at hread

theorem poll_eq_ok_iff {stream : Stream} {full : Bool} :
    Transport.poll stream recorded = .ok (full, after) ↔
      recorded.tick = .ok after ∧ after.device.full stream = full := by
  rw [← observe_value_eq_ok_iff fun device => device.full stream]
  cases stream <;> rfl

theorem outstanding_eq_ok_iff {stage : Stage} {count : Nat} :
    Accelerator.outstanding stage recorded = .ok (count, after) ↔
      recorded.tick = .ok after ∧ (after.device.stages.get stage).outstanding = .ok count := by
  rw [← observe_eq_ok_iff fun device => (device.stages.get stage).outstanding]
  change recorded.observe (·.outstanding stage) = _ ↔ _
  simp only [Device.outstanding_eq]

theorem outstanding_eq_error {stage : Stage} {cause : Fault} (htick : recorded.tick = .ok after)
    (h : (after.device.stages.get stage).outstanding = .error cause) :
    Accelerator.outstanding stage recorded = .error cause := by
  change recorded.observe (·.outstanding stage) = _
  simp only [Device.outstanding_eq, observe_tick, htick]
  change ((after.device.stages.get stage).outstanding.map (·, after.device) >>= _) = _
  rw [h]
  rfl

theorem stateCycles_eq_ok_iff {stage : Stage} {state : ControlState} {count : Nat} :
    Accelerator.stateCycles stage state recorded = .ok (count, after) ↔
      recorded.tick = .ok after ∧ (after.device.stages.get stage).cycles.get state = count :=
  observe_value_eq_ok_iff fun device => (device.stages.get stage).cycles.get state

theorem cycleCount_eq_ok_iff {count : Nat} :
    Accelerator.cycleCount recorded = .ok (count, after) ↔ recorded.tick = .ok after ∧ after.device.cycles = count :=
  observe_value_eq_ok_iff fun device => device.cycles

theorem push_eq_ok_iff {entry : Entry} :
    Transport.push entry recorded = .ok after ↔
      ∃ ticked, recorded.tick = .ok ticked ∧ after = { ticked with device := ticked.device.accept entry } := by
  rw [← change_eq_ok_iff (f := (·.accept entry))]
  change recorded.change (·.push entry) = _ ↔ _
  simp only [Device.push_eq]

theorem setEnabled_eq_ok_iff {enabled : PerStage Bool} :
    Accelerator.setEnabled enabled recorded = .ok after ↔
      ∃ ticked, recorded.tick = .ok ticked ∧ after = { ticked with device := { ticked.device with enabled } } :=
  change_eq_ok_iff

theorem setCounting_eq_ok_iff {counting : Bool} :
    Accelerator.setCounting counting recorded = .ok after ↔
      ∃ ticked, recorded.tick = .ok ticked ∧ after = { ticked with device := ticked.device.switch counting } :=
  change_eq_ok_iff

theorem setEnabled_total (h : ∃ ticked, recorded.tick = .ok ticked) (enabled : PerStage Bool) :
    ∃ after, Accelerator.setEnabled enabled recorded = .ok after := by
  obtain ⟨ticked, hticked⟩ := h
  exact ⟨_, setEnabled_eq_ok_iff.mpr ⟨ticked, hticked, rfl⟩⟩

theorem setCounting_total (h : ∃ ticked, recorded.tick = .ok ticked) (counting : Bool) :
    ∃ after, Accelerator.setCounting counting recorded = .ok after := by
  obtain ⟨ticked, hticked⟩ := h
  exact ⟨_, setCounting_eq_ok_iff.mpr ⟨ticked, hticked, rfl⟩⟩

end Accesses

end Recorded

end BitSerial
