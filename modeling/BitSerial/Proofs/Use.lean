import BitSerial.Proofs.Accounts
import BitSerial.Proofs.Storage

/-! # Devices in use

A host may do what it likes with a device, before a session begins on it and after: the queues keep the depth that the
array says, and the next buffer is aligned.
-/

namespace BitSerial

/-- Memory after some use. -/
inductive Memory.Used : Memory → Prop where
  | made (capacity : Nat) : Used (.ofCapacity capacity)
  | allocate {memory after : Memory} {bytes : Nat} {answer : Except MemoryDefect Buffer} (h : Used memory)
      (hallocate : memory.allocate bytes = .ok (answer, after)) : Used after
  | write {memory after : Memory} {address : Nat} {data : List UInt8} (h : Used memory)
      (hwrite : memory.write address data = .ok after) : Used after
  | read {memory after : Memory} {address length : Nat} {data : List UInt8} (h : Used memory)
      (hread : memory.read address length = .ok (data, after)) : Used after
  | free {memory : Memory} (h : Used memory) (address : Nat) : Used (memory.free address)
  | countRead {memory : Memory} (h : Used memory) (address length : Nat) : Used (memory.countRead address length)
  | countWrite {memory : Memory} (h : Used memory) (address length : Nat) : Used (memory.countWrite address length)

/-- The next buffer is aligned. -/
theorem Memory.Used.aligned {memory : Memory} (h : memory.Used) : memory.next % addressAlign = 0 := by
  induction h with
  | made capacity =>
    change Memory.windowBase % addressAlign = 0
    decide
  | @allocate memory after bytes answer _ hallocate ih =>
    cases answer with
    | error defect => exact Memory.allocate_eq_refused hallocate ▸ ih
    | ok buffer =>
      obtain ⟨_, size, _, _, hsize, _, _, rfl⟩ := Memory.allocate_eq_ok hallocate
      rw [Nat.add_mod, ih, hsize]
      rfl
  | write _ hwrite ih =>
    obtain ⟨_, rfl⟩ := Memory.write_eq_ok_iff.mp hwrite
    exact ih
  | read _ hread ih =>
    obtain ⟨bytesRead, rfl⟩ := Memory.read_frame hread
    exact ih
  | free _ _ ih => exact ih
  | countRead _ _ _ ih => exact ih
  | countWrite _ _ _ ih => exact ih

/-- A device after some use, by hosts that do whatever they like. Every register access is a cycle, which some of them
follow up with a change. -/
inductive Device.Used : Device → Prop where
  | made (geometry : Geometry) (signature : Nat) (clock : Float) :
      Used { Device.ofGeometry geometry with signature, clock }
  | tick {device after : Device} (h : Used device) (htick : device.tick = .ok after) : Used after
  | accept {device : Device} (h : Used device) (entry : Entry) : Used (device.accept entry)
  | enable {device : Device} (h : Used device) (enabled : PerStage Bool) : Used { device with enabled }
  | switch {device : Device} (h : Used device) (counting : Bool) : Used (device.switch counting)
  | stall {device : Device} (h : Used device) (stage : Stage) (stalled : Bool) : Used (device.stall stage stalled)
  | reset {device : Device} (h : Used device) : Used device.reset
  | store {device : Device} {memory : Memory} (h : Used device) (hmemory : memory.Used) : Used { device with memory }

/-- Use changes neither the depth of the queues nor the alignment of buffers. -/
theorem Device.Used.built {device : Device} (h : device.Used) :
    (∀ stage, (device.stages.get stage).depth = device.geometry.queueEntries) ∧
      device.memory.next % addressAlign = 0 := by
  induction h with
  | made geometry signature clock =>
    refine ⟨fun stage => ?_, (Memory.Used.made Memory.defaultCapacity).aligned⟩
    change ((PerStage.all (Controller.ofDepth geometry.queueEntries)).get stage).depth = _
    rw [PerStage.get_all]
    rfl
  | tick _ htick ih =>
    refine Device.tick_keeps _ (fun device =>
      (∀ stage, (device.stages.get stage).depth = device.geometry.queueEntries) ∧
        device.memory.next % addressAlign = 0) (fun _ h => h) (fun _ _ _ h hturn => ?_) ih htick
    refine ⟨fun stage => ?_, ?_⟩
    · rw [(hturn.frame stage).1, hturn.switches.2.2]
      exact h.1 stage
    · rw [hturn.settled.window.2]
      exact h.2
  | @accept device _ entry ih =>
    have hdepth := device.accept_keeps (fun _ controller => controller.depth = device.geometry.queueEntries)
      (fun _ controller token h => ?_) (fun _ controller command h => ?_) ih.1 entry
    · cases entry with
      | token stage token => exact ⟨hdepth, ih.2⟩
      | command command => exact ⟨hdepth, ih.2⟩
    · unfold Controller.pushToken
      split <;> exact h
    · unfold Controller.pushCommand
      split <;> exact h
  | enable _ _ ih => exact ih
  | @switch device _ counting ih =>
    obtain ⟨hgeometry, _, hmemory, _⟩ := device.switch_frame counting
    rw [hgeometry, hmemory]
    exact ⟨device.switch_keeps (fun _ controller => controller.depth = device.geometry.queueEntries) (fun _ _ h => h)
      ih.1 counting, ih.2⟩
  | @stall device _ stage stalled ih =>
    exact ⟨fun other => (device.stall_depth stage other stalled).trans (ih.1 other), ih.2⟩
  | @reset device _ ih => exact ⟨fun stage => (device.reset_depth stage).trans (ih.1 stage), ih.2⟩
  | store _ hmemory ih => exact ⟨ih.1, hmemory.aligned⟩

end BitSerial
