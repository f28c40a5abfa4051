import BitSerial.Proofs.Flow
import BitSerial.Proofs.Recorded

/-! # What a device can reach

Three programs are streamed through a device by a host that may do, in any order and as often as it likes, what hosts
do: push the next entry of a program into a queue that has room, let cycles pass, freeze and release stages, enable and
disable them, and turn counting on and off. Cycles are taken apart into the turns of the stages, which are allowed in
any order; that only adds to what can happen. Every register access is made up of these steps.

From a device at rest, every state reached is a flow, and the operations that were finished are the programs up to
there.
-/

namespace BitSerial

/-- How many operations a stage has completed since a device was in an earlier state. -/
def Device.doneSince (start device : Device) (stage : Stage) : Nat :=
  (device.stages.get stage).completed - (start.stages.get stage).completed

/-- A cycle fills no queue. -/
theorem Device.tick_room {device after : Device} (h : device.tick = .ok after) {stream : Stream}
    (hroom : device.full stream = false) : after.full stream = false := by
  refine device.tick_keeps (·.full stream = false) (fun _ hroom => hroom) (fun device turned after hroom hturn => ?_)
    hroom h
  cases stream with
  | token stage =>
    have := hturn.queues_le stage
    have := hturn.frame stage
    simp only [Device.full, Controller.tokensFull, decide_eq_false_iff_not] at hroom ⊢
    omega
  | command stage =>
    have := hturn.queues_le stage
    have := hturn.frame stage
    simp only [Device.full, Controller.commandsFull, decide_eq_false_iff_not] at hroom ⊢
    omega

theorem Recorded.tick_room {recorded after : Recorded} (h : recorded.tick = .ok after) {stream : Stream}
    (hroom : recorded.device.full stream = false) : after.device.full stream = false :=
  Device.tick_room (device_tick h) hroom

/-- What a device and its host can come to, with what the host has still to push. -/
inductive Reached (programs : Stage → List Operation) (start : Recorded) : Backlog → Recorded → Prop where
  | start : Reached programs start (.ofPrograms programs) start
  | count {left : Backlog} {recorded : Recorded} (h : Reached programs start left recorded) :
      Reached programs start left recorded.countTick
  | turn {left : Backlog} {recorded after : Recorded} {stage : Stage} (h : Reached programs start left recorded)
      (hturn : recorded.turn stage = .ok after) : Reached programs start left after
  | pushToken {left : Backlog} {recorded : Recorded} {stage : Stage} {token : Token} {rest : List Token}
      (h : Reached programs start left recorded) (hnext : left.tokens.get stage = token :: rest)
      (hroom : (recorded.device.stages.get stage).tokensFull = false) :
      Reached programs start (left.withTokens rest stage)
        { recorded with device := recorded.device.accept (.token stage token) }
  | pushCommand {left : Backlog} {recorded : Recorded} {stage : Stage} {command : Command} {rest : List Command}
      (h : Reached programs start left recorded) (hnext : left.commands.get stage = command :: rest)
      (hroom : (recorded.device.stages.get stage).commandsFull = false) :
      Reached programs start (left.withCommands rest stage)
        { recorded with device := recorded.device.accept (.command command) }
  | stall {left : Backlog} {recorded : Recorded} (h : Reached programs start left recorded) (stage : Stage)
      (stalled : Bool) :
      Reached programs start left { recorded with device := recorded.device.stall stage stalled }
  | enable {left : Backlog} {recorded : Recorded} (h : Reached programs start left recorded) (enabled : PerStage Bool) :
      Reached programs start left { recorded with device := { recorded.device with enabled } }
  | switch {left : Backlog} {recorded : Recorded} (h : Reached programs start left recorded) (counting : Bool) :
      Reached programs start left { recorded with device := recorded.device.switch counting }

namespace Reached

variable {programs : Stage → List Operation} {start : Recorded} {left : Backlog} {recorded after : Recorded}

/-- Where the three programs are in a state reached from a device at rest. -/
theorem flow (hstaged : Staged programs) (hrest : start.device.Quiescent)
    (h : Reached programs start left recorded) :
    Flow programs (fun stage => (start.device.stages.get stage).completed) left recorded.device.stages
      recorded.device.handoff (start.device.doneSince recorded.device) := by
  induction h with
  | start =>
    have hflow := Flow.start hrest programs
    rwa [hflow.position_eq_sub] at hflow
  | count _ ih => exact ih
  | turn _ hturn ih =>
    obtain ⟨hturn, _⟩ := (Recorded.turn_eq_ok_iff _).mp hturn
    obtain ⟨reached, hflow⟩ := ih.turn hstaged (Device.tickStage_turn _ hturn)
    rwa [hflow.position_eq_sub] at hflow
  | pushToken _ hnext hroom ih =>
    have hflow := ih.pushToken hnext hroom
    rwa [hflow.position_eq_sub] at hflow
  | pushCommand _ hnext hroom ih =>
    have hflow := ih.pushCommand hnext hroom
    rw [← ih.stage_of_next_command hstaged hnext, hflow.position_eq_sub] at hflow
    rw [← ih.stage_of_next_command hstaged hnext]
    exact hflow
  | stall _ stage stalled ih =>
    have hflow := ih.setStalled stage stalled
    rwa [hflow.position_eq_sub] at hflow
  | enable _ _ ih => exact ih
  | @switch left recorded _ counting ih =>
    unfold Device.switch
    split
    · have hflow := ih.clearCycles
      rwa [hflow.position_eq_sub] at hflow
    · exact ih

/-- The array stays what it is. -/
theorem geometry (h : Reached programs start left recorded) : recorded.device.geometry = start.device.geometry := by
  induction h with
  | start => rfl
  | count _ ih => exact ih
  | turn _ hturn ih =>
    exact (Device.tickStage_turn _ ((Recorded.turn_eq_ok_iff _).mp hturn).1).switches.2.2.trans ih
  | @pushToken _ _ stage token _ _ _ _ ih => exact ih
  | @pushCommand _ _ _ command _ _ _ _ ih => exact ih
  | stall _ _ _ ih => exact ih
  | enable _ _ ih => exact ih
  | @switch _ recorded _ counting ih => exact (recorded.device.switch_frame counting).1.trans ih

/-- A cycle is three turns. -/
theorem tick (h : Reached programs start left recorded) (htick : recorded.tick = .ok after) :
    Reached programs start left after := by
  obtain ⟨fetched, executed, hfetch, hexecute, hresult⟩ := (Recorded.tick_eq_ok_iff _).mp htick
  exact ((h.count.turn hfetch).turn hexecute).turn hresult

theorem setEnabled {enabled : PerStage Bool} (h : Reached programs start left recorded)
    (hwrite : Accelerator.setEnabled enabled recorded = .ok after) : Reached programs start left after := by
  obtain ⟨ticked, hticked, rfl⟩ := Recorded.setEnabled_eq_ok_iff.mp hwrite
  exact (h.tick hticked).enable enabled

theorem setCounting {counting : Bool} (h : Reached programs start left recorded)
    (hwrite : Accelerator.setCounting counting recorded = .ok after) : Reached programs start left after := by
  obtain ⟨ticked, hticked, rfl⟩ := Recorded.setCounting_eq_ok_iff.mp hwrite
  exact (h.tick hticked).switch counting

/-- A token is pushed when the queue was seen to have room before. -/
theorem push_token {stage : Stage} {token : Token} {rest : List Token} (h : Reached programs start left recorded)
    (hnext : left.tokens.get stage = token :: rest) (hroom : recorded.device.full (.token stage) = false)
    (hpush : Transport.push (.token stage token) recorded = .ok after) :
    Reached programs start (left.withTokens rest stage) after := by
  obtain ⟨ticked, hticked, rfl⟩ := Recorded.push_eq_ok_iff.mp hpush
  exact (h.tick hticked).pushToken hnext (Recorded.tick_room hticked hroom)

theorem push_command {stage : Stage} {command : Command} {rest : List Command}
    (h : Reached programs start left recorded)
    (hnext : left.commands.get stage = command :: rest) (hroom : recorded.device.full (.command stage) = false)
    (hpush : Transport.push (.command command) recorded = .ok after) :
    Reached programs start (left.withCommands rest stage) after := by
  obtain ⟨ticked, hticked, rfl⟩ := Recorded.push_eq_ok_iff.mp hpush
  exact (h.tick hticked).pushCommand hnext (Recorded.tick_room hticked hroom)

/-- What a stage has finished is its program up to where it is. -/
theorem finished (hstaged : Staged programs) (hrest : start.device.Quiescent)
    (h : Reached programs start left recorded) (stage : Stage) :
    finishedOf stage recorded.trail = finishedOf stage start.trail ++
      (programs stage).take
        (start.device.doneSince recorded.device stage + (recorded.device.stages.get stage).activity.worked) := by
  induction h with
  | start => simp [Device.doneSince, hrest.activity, Activity.worked]
  | count _ ih => exact ih
  | @turn left recorded after turned h hturn ih =>
    obtain ⟨hdevice, htrail⟩ := (Recorded.turn_eq_ok_iff _).mp hturn
    have hlane := (h.flow hstaged hrest).lane stage
    have hlaneAfter := ((h.turn hturn).flow hstaged hrest).lane stage
    replace hturn := Device.tickStage_turn _ hdevice
    -- the turn of the stage adds the operation that finishes in it, the turn of another stage adds none
    rw [htrail, finishedOf_append, ih, List.append_assoc]
    congr 1
    rw [finishedOf_turn]
    split
    next hturned =>
      subst hturned
      have hcompleted := hturn.completed_add_worked
      have hcount : start.device.doneSince after.device turned + (after.device.stages.get turned).activity.worked =
          start.device.doneSince recorded.device turned + (recorded.device.stages.get turned).activity.worked +
            (recorded.device.finishing? turned).toList.length := by
        rw [hlane.completed, hlaneAfter.completed] at hcompleted
        omega
      rw [hcount]
      cases hfinishing : recorded.device.finishing? turned with
      | none => simp
      | some operation =>
        have hinFlight := hlane.inFlight operation (Device.finishing?_operation _ hfinishing)
        rw [Device.Turn.worked_of_finishing hfinishing, Option.toList_some, List.length_singleton, Nat.add_zero,
          List.take_add_one, hinFlight, Option.toList_some]
    next hturned =>
      have hother := hturn.stage_of_ne (Ne.symm hturned)
      rw [List.append_nil, Device.doneSince, Device.doneSince, hother]
  | @pushToken _ recorded stage' token _ _ _ _ ih =>
    have := recorded.device.accept_sequencers (.token stage' token) stage
    rw [Device.doneSince, this.1, this.2]
    exact ih
  | @pushCommand _ recorded _ command _ _ _ _ ih =>
    have := recorded.device.accept_sequencers (.command command) stage
    rw [Device.doneSince, this.1, this.2]
    exact ih
  | @stall _ recorded _ stage' stalled ih =>
    have := recorded.device.stall_sequencers stage' stalled stage
    rw [Device.doneSince, this.1, this.2]
    exact ih
  | enable _ _ ih => exact ih
  | @switch _ recorded _ counting ih =>
    have := recorded.device.switch_sequencers counting stage
    rw [Device.doneSince, this.1, this.2]
    exact ih

end Reached

end BitSerial
