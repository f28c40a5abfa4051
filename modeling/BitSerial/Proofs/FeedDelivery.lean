import Mathlib.Algebra.BigOperators.Group.List.Basic
import BitSerial.Proofs.Accounts
import BitSerial.Proofs.Conversation
import BitSerial.Proofs.Exclusion

/-! # Feeding a device and feeding a paced transport

Two transports that feeds meet. A device takes a cycle for every call and drops nothing that is fed to it, because no
cycle takes away the room that a poll found. Its stages take from their queues while it is fed, a token and a command at
a time, so what was fed to a stage is in its queues or was taken. A transport that recovers from its pushes is as
patient as it recovers quickly, so everything is delivered to it.
-/

namespace BitSerial

namespace Controller

/-- A stage has come from one state to another without being given anything, and took operations from its queues. -/
structure Takes (controller moved : Controller) (taken : List Operation) : Prop where
  tokens : controller.tokens.toList = taken.map (·.token) ++ moved.tokens.toList
  commands : controller.commands.toList = taken.map (·.command) ++ moved.commands.toList
  /-- What was taken is done or in flight. -/
  count : moved.completed + moved.activity.taken = controller.completed + controller.activity.taken + taken.length

variable {controller moved later : Controller}

theorem Takes.refl (controller : Controller) : controller.Takes controller [] := ⟨rfl, rfl, rfl⟩

theorem Takes.trans {taken more : List Operation} (h : controller.Takes moved taken) (hnext : moved.Takes later more) :
    controller.Takes later (taken ++ more) := by
  constructor
  · rw [h.tokens, hnext.tokens, List.map_append, List.append_assoc]
  · rw [h.commands, hnext.commands, List.map_append, List.append_assoc]
  · rw [hnext.count, h.count, List.length_append, Nat.add_assoc]

/-- A move takes an operation if the stage is idle and both of its queues hold something. -/
theorem Move.takes {duration : Operation → Except Fault Nat} {handoff after : Handoff} {finished : Option Operation}
    (h : Move duration controller handoff finished moved after) : ∃ taken, controller.Takes moved taken := by
  cases h with
  | stand => exact ⟨[], .refl controller⟩
  | @take token command _ _ _ hactivity htokens hcommands =>
    refine ⟨[⟨command, token⟩], htokens, hcommands, ?_⟩
    rw [hactivity]
    rfl
  | start _ hactivity => exact ⟨[], rfl, rfl, by rw [hactivity]; rfl⟩
  | work _ hactivity => exact ⟨[], rfl, rfl, by rw [hactivity]; rfl⟩
  | finish _ hactivity => exact ⟨[], rfl, rfl, by rw [hactivity]; rfl⟩
  | handOn _ hactivity => exact ⟨[], rfl, rfl, by rw [hactivity]; rfl⟩

end Controller

namespace Device

variable {device after : Device} {stream : Stream} {entry : Entry} {full : Bool}

theorem poll_eq_ok_iff : Transport.poll stream device = .ok (full, after) ↔
    device.tick = .ok after ∧ after.full stream = full := by
  change device.poll stream = _ ↔ _
  cases stream <;>
  · simp only [poll, bind_eq_ok_iff, pure_eq_ok_iff, Prod.mk.injEq]
    constructor
    · rintro ⟨ticked, hticked, rfl, rfl⟩
      exact ⟨hticked, rfl⟩
    · rintro ⟨hticked, rfl⟩
      exact ⟨after, hticked, rfl, rfl⟩

theorem push_eq_ok_iff : Transport.push entry device = .ok after ↔
    ∃ ticked, device.tick = .ok ticked ∧ after = ticked.accept entry := by
  change device.push entry = _ ↔ _
  rw [push_eq, bind_eq_ok_iff]
  exact exists_congr fun ticked => and_congr_right fun _ =>
    ⟨fun h => (Except.ok.inj h).symm, fun h => congrArg Except.ok h.symm⟩

/-- A cycle drops nothing. -/
theorem tick_overflows (h : device.tick = .ok after) (stage : Stage) :
    (after.stages.get stage).overflows = (device.stages.get stage).overflows :=
  device.tick_keeps (fun other => (other.stages.get stage).overflows = (device.stages.get stage).overflows)
    (fun _ h => h) (fun _ _ _ h hturn => (hturn.frame stage).2.2.trans h) rfl h

theorem accept_ticks (device : Device) (entry : Entry) :
    (device.accept entry).statistics.ticks = device.statistics.ticks := by
  cases entry <;> rfl

theorem Turn.takes {turned : Stage} (h : device.Turn turned after) (stage : Stage) :
    ∃ taken, (device.stages.get stage).Takes (after.stages.get stage) taken := by
  by_cases hstage : stage = turned
  · subst hstage
    cases h with
    | off => exact ⟨[], .refl _⟩
    | on _ hmove hsettle =>
      obtain ⟨taken, htokens, hcommands, hcount⟩ := hmove.takes
      rw [settle_frame _ hsettle]
      simp only [withMove, PerStage.get_set_self, Controller.counted_tokens, Controller.counted_commands,
        Controller.counted_completed, Controller.counted_activity] at htokens hcommands hcount ⊢
      exact ⟨taken, htokens, hcommands, hcount⟩
  · rw [h.stage_of_ne hstage]
    exact ⟨[], .refl _⟩

/-- In a cycle a stage may take operations from its queues. -/
theorem tick_takes (h : device.tick = .ok after) (stage : Stage) :
    ∃ taken, (device.stages.get stage).Takes (after.stages.get stage) taken := by
  refine device.tick_keeps (fun other => ∃ taken, (device.stages.get stage).Takes (other.stages.get stage) taken)
    (fun _ h => h) (fun _ _ _ h hturn => ?_) ⟨[], .refl _⟩ h
  obtain ⟨taken, htaken⟩ := h
  obtain ⟨more, hmore⟩ := hturn.takes stage
  exact ⟨taken ++ more, htaken.trans hmore⟩

/-- A cycle pushes nothing. -/
theorem tick_pushed (h : device.tick = .ok after) :
    after.statistics.tokensPushed = device.statistics.tokensPushed ∧
      after.statistics.commandsPushed = device.statistics.commandsPushed := by
  refine device.tick_keeps (fun other => other.statistics.tokensPushed = device.statistics.tokensPushed ∧
    other.statistics.commandsPushed = device.statistics.commandsPushed) (fun _ h => h) (fun _ _ _ h hturn => ?_)
    ⟨rfl, rfl⟩ h
  rw [hturn.settled.statistics]
  exact h

/-- A push is counted as a token or as a command. -/
theorem accept_pushed (device : Device) (entry : Entry) :
    (device.accept entry).statistics.tokensPushed = device.statistics.tokensPushed +
        (Stage.all.map fun stage => (if entry.stream = .token stage then [entry] else []).length).sum ∧
      (device.accept entry).statistics.commandsPushed = device.statistics.commandsPushed +
        (Stage.all.map fun stage => (if entry.stream = .command stage then [entry] else []).length).sum := by
  cases entry with
  | token stage token => cases stage <;> exact ⟨rfl, rfl⟩
  | command command => cases command <;> exact ⟨rfl, rfl⟩

/-- The entries in the queue of a stream. -/
def queued (device : Device) : Stream → List Entry
  | .token stage => (device.stages.get stage).tokens.toList.map (.token stage)
  | .command stage => (device.stages.get stage).commands.toList.map .command

/-- An entry goes behind those that are queued on its stream, if there is room. -/
theorem accept_queued (hroom : device.full entry.stream = false) (stream : Stream) :
    (device.accept entry).queued stream =
      device.queued stream ++ if entry.stream = stream then [entry] else [] := by
  cases entry with
  | token pushed token =>
    have hroom : ¬(device.stages.get pushed).tokensFull = true := Bool.eq_false_iff.mp hroom
    cases stream with
    | token stage =>
      simp only [queued, accept, updateStage, PerStage.get_set, Entry.stream, Stream.token.injEq]
      split
      next hstage =>
        subst hstage
        rw [Controller.pushToken, if_neg hroom, if_pos rfl, Queue.toList_push, List.map_append, List.map_singleton]
      next hstage => rw [if_neg (Ne.symm hstage), List.append_nil]
    | command stage =>
      simp only [queued, accept, updateStage, PerStage.get_set, Entry.stream, reduceCtorEq, if_false, List.append_nil]
      split
      next hstage =>
        subst hstage
        rw [Controller.pushToken, if_neg hroom]
      next => rfl
  | command command =>
    have hroom : ¬(device.stages.get command.stage).commandsFull = true := Bool.eq_false_iff.mp hroom
    cases stream with
    | token stage =>
      simp only [queued, accept, updateStage, PerStage.get_set, Entry.stream, reduceCtorEq, if_false, List.append_nil]
      split
      next hstage =>
        subst hstage
        rw [Controller.pushCommand, if_neg hroom]
      next => rfl
    | command stage =>
      simp only [queued, accept, updateStage, PerStage.get_set, Entry.stream, Stream.command.injEq]
      split
      next hstage =>
        subst hstage
        rw [Controller.pushCommand, if_neg hroom, if_pos rfl, Queue.toList_push, List.map_append, List.map_singleton]
      next hstage => rw [if_neg (Ne.symm hstage), List.append_nil]

/-- What became of the entries of a stage while a device was fed: those that were queued at first and those that were
pushed are, in this order, those of the operations that the stage took and those that are queued now. -/
structure Supplied (start : Device) (overheard : Overheard Device) (stage : Stage) (taken : List Operation) : Prop where
  tokens : start.queued (.token stage) ++ overheard.pushedOn (.token stage) =
    taken.map (fun operation => .token stage operation.token) ++ overheard.transport.queued (.token stage)
  commands : start.queued (.command stage) ++ overheard.pushedOn (.command stage) =
    taken.map (fun operation => .command operation.command) ++ overheard.transport.queued (.command stage)
  /-- What was taken is done or in flight. -/
  count : (overheard.transport.stages.get stage).completed + (overheard.transport.stages.get stage).activity.taken =
    (start.stages.get stage).completed + (start.stages.get stage).activity.taken + taken.length

/-- A device was fed since it was in an earlier state: every call took a cycle, every push was counted, nothing was
dropped, and what was pushed was taken or is queued. -/
structure Fed (start : Device) (overheard : Overheard Device) : Prop where
  ticks : overheard.transport.statistics.ticks = start.statistics.ticks + overheard.calls.length
  tokensPushed : overheard.transport.statistics.tokensPushed = start.statistics.tokensPushed +
    (Stage.all.map fun stage => (overheard.pushedOn (.token stage)).length).sum
  commandsPushed : overheard.transport.statistics.commandsPushed = start.statistics.commandsPushed +
    (Stage.all.map fun stage => (overheard.pushedOn (.command stage)).length).sum
  overflows : ∀ stage, (overheard.transport.stages.get stage).overflows = (start.stages.get stage).overflows
  supplied : ∀ stage, ∃ taken, start.Supplied overheard stage taken

namespace Supplied

variable {start : Device} {overheard polled after : Overheard Device} {stage : Stage} {taken : List Operation}

/-- A cycle moves entries from the queues to those that were taken. -/
theorem tick (h : start.Supplied overheard stage taken) (htick : overheard.transport.tick = .ok after.transport)
    (hpushed : ∀ stream, after.pushedOn stream = overheard.pushedOn stream) :
    ∃ taken, start.Supplied after stage taken := by
  obtain ⟨more, htokens, hcommands, hcount⟩ := tick_takes htick stage
  have htokens := congrArg (List.map (Entry.token stage)) htokens
  have hcommands := congrArg (List.map Entry.command) hcommands
  rw [List.map_append, List.map_map] at htokens hcommands
  refine ⟨taken ++ more, ?_, ?_, ?_⟩
  · rw [hpushed, h.tokens, List.map_append, List.append_assoc]
    exact congrArg _ htokens
  · rw [hpushed, h.commands, List.map_append, List.append_assoc]
    exact congrArg _ hcommands
  · rw [hcount, h.count, List.length_append, Nat.add_assoc]

/-- An entry that is let in is queued. -/
theorem accept (h : start.Supplied overheard stage taken) (hafter : after.transport = overheard.transport.accept entry)
    (hroom : overheard.transport.full entry.stream = false)
    (hpushed : ∀ stream, after.pushedOn stream =
      overheard.pushedOn stream ++ if entry.stream = stream then [entry] else []) :
    start.Supplied after stage taken := by
  obtain ⟨hactivity, hcompleted⟩ := overheard.transport.accept_sequencers entry stage
  constructor
  · rw [hpushed, hafter, accept_queued hroom, ← List.append_assoc, h.tokens, List.append_assoc]
  · rw [hpushed, hafter, accept_queued hroom, ← List.append_assoc, h.commands, List.append_assoc]
  · rw [hafter, hactivity, hcompleted]
    exact h.count

end Supplied

namespace Fed

variable {start : Device} {overheard polled after : Overheard Device}

theorem refl (start : Device) : start.Fed ⟨start, []⟩ :=
  ⟨rfl, rfl, rfl, fun _ => rfl, fun _ => ⟨[], List.append_nil _, List.append_nil _, rfl⟩⟩

theorem poll (h : start.Fed overheard) (hpoll : Transport.poll stream overheard = .ok (full, after)) :
    start.Fed after := by
  have hpushedOn := Overheard.pushedOn_poll hpoll
  obtain ⟨hpoll, hcalls⟩ := Overheard.poll_eq_ok_iff.mp hpoll
  obtain ⟨htick, -⟩ := poll_eq_ok_iff.mp hpoll
  obtain ⟨htokens, hcommands⟩ := tick_pushed htick
  constructor
  case ticks =>
    rw [tick_ticks htick, hcalls, h.ticks, List.length_append, List.length_singleton, Nat.add_assoc]
  case tokensPushed =>
    simp only [hpushedOn]
    exact htokens.trans h.tokensPushed
  case commandsPushed =>
    simp only [hpushedOn]
    exact hcommands.trans h.commandsPushed
  case overflows => exact fun stage => (tick_overflows htick stage).trans (h.overflows stage)
  case supplied =>
    intro stage
    obtain ⟨taken, htaken⟩ := h.supplied stage
    exact htaken.tick htick hpushedOn

/-- The room that a poll found is still there when the push arrives. -/
theorem push (h : start.Fed overheard) (hpoll : Transport.poll entry.stream overheard = .ok (false, polled))
    (hpush : Transport.push entry polled = .ok after) : start.Fed after := by
  have hpolled := h.poll hpoll
  have hpushedOn := Overheard.pushedOn_push hpush
  obtain ⟨-, hroom⟩ := poll_eq_ok_iff.mp (Overheard.poll_eq_ok_iff.mp hpoll).1
  obtain ⟨hpush, hcalls⟩ := Overheard.push_eq_ok_iff.mp hpush
  obtain ⟨ticked, htick, hafter⟩ := push_eq_ok_iff.mp hpush
  have hticked := tick_room htick hroom
  obtain ⟨htokens, hcommands⟩ := tick_pushed htick
  obtain ⟨htokensPushed, hcommandsPushed⟩ := ticked.accept_pushed entry
  constructor
  case ticks =>
    rw [hafter, accept_ticks, tick_ticks htick, hcalls, hpolled.ticks, List.length_append, List.length_singleton,
      Nat.add_assoc]
  case tokensPushed =>
    simp only [hpushedOn, List.length_append, List.sum_map_add]
    rw [hafter, htokensPushed, htokens, hpolled.tokensPushed, Nat.add_assoc]
  case commandsPushed =>
    simp only [hpushedOn, List.length_append, List.sum_map_add]
    rw [hafter, hcommandsPushed, hcommands, hpolled.commandsPushed, Nat.add_assoc]
  case overflows =>
    intro stage
    rw [hafter, (ticked.accept_frame hticked stage).2.2, tick_overflows htick, hpolled.overflows]
  case supplied =>
    intro stage
    obtain ⟨taken, htaken⟩ := hpolled.supplied stage
    obtain ⟨more, hmore⟩ := @Supplied.tick _ _ ⟨ticked, polled.calls⟩ _ _ htaken htick fun _ => rfl
    exact ⟨more, hmore.accept hafter hticked hpushedOn⟩

theorem keeps (schedule : Schedule) (start : Device) :
    Feed.Keeps fun left overheard => schedule.Parted left overheard ∧ start.Fed overheard where
  refused h hpoll := ⟨Schedule.Parted.keeps.refused h.1 hpoll, h.2.poll hpoll⟩
  taken h hnext hpoll hpush := by
    obtain rfl := h.1.stream_eq hnext
    exact ⟨Schedule.Parted.keeps.taken h.1 hnext hpoll hpush, h.2.push hpoll hpush⟩

end Fed

end Device

namespace PacedTransport

variable {patience : Nat} {before polled after : Overheard PacedTransport} {stream other : Stream} {entry : Entry}
  {full : Bool}

theorem poll_eq_ok_iff {transport later : PacedTransport} : Transport.poll stream transport = .ok (full, later) ↔
    transport.poll stream = (full, later) := by
  change Except.ok (transport.poll stream) = _ ↔ _
  rw [Except.ok.injEq]

/-- How a poll is answered follows from the recovery that is left, which it shortens. -/
theorem poll_busy {transport later : PacedTransport} (h : transport.poll stream = (full, later)) :
    later.recovery = transport.recovery ∧
      (full = true → transport.busy.get stream = later.busy.get stream + 1) ∧
      (full = false → transport.busy.get stream = 0) ∧
      ∀ other, other ≠ stream ∨ full = false → later.busy.get other = transport.busy.get other := by
  unfold poll at h
  dsimp only at h
  split at h
  next hfree =>
    obtain ⟨rfl, rfl⟩ := Prod.mk.inj h
    exact ⟨rfl, nofun, fun _ => hfree, fun _ _ => rfl⟩
  next left hbusy =>
    obtain ⟨rfl, rfl⟩ := Prod.mk.inj h
    refine ⟨rfl, fun _ => ?_, nofun, fun other hother => ?_⟩
    · rw [PerStream.get_set_self]
      exact hbusy
    · exact PerStream.get_set_of_ne _ _ (hother.resolve_right nofun)

/-- What was refused in a row on a stream and what is still to be refused stay within the patience. -/
structure Rested (patience : Nat) (overheard : Overheard PacedTransport) : Prop where
  recovery : ∀ stream, overheard.transport.recovery.get stream ≤ patience
  patient : overheard.Patient patience
  busy : ∀ stream refusals, List.replicate refusals true <:+ overheard.answers stream →
    refusals + overheard.transport.busy.get stream ≤ patience

namespace Rested

/-- A refusal shortens the recovery by one. -/
theorem refused (h : Rested patience before) (hpoll : Transport.poll stream before = .ok (true, after)) :
    Rested patience after := by
  obtain ⟨hpoll', -⟩ := Overheard.poll_eq_ok_iff.mp hpoll
  obtain ⟨hrecovery, hrefused, -, hothers⟩ := poll_busy (poll_eq_ok_iff.mp hpoll')
  have hleft := hrefused rfl
  have hbusy (other : Stream) (refusals : Nat) (hrefusals : List.replicate refusals true <:+ after.answers other) :
      refusals + after.transport.busy.get other ≤ patience := by
    rw [Overheard.answers_poll hpoll] at hrefusals
    by_cases hother : stream = other
    · subst hother
      rw [if_pos rfl] at hrefusals
      cases refusals with
      | zero =>
        have := h.busy stream 0 List.nil_suffix
        omega
      | succ refusals =>
        rw [List.replicate_succ', List.suffix_append_self_iff] at hrefusals
        have := h.busy stream refusals hrefusals
        omega
    · rw [if_neg hother, List.append_nil] at hrefusals
      rw [hothers other (.inl (Ne.symm hother))]
      exact h.busy other refusals hrefusals
  refine ⟨fun other => hrecovery ▸ h.recovery other, fun other hmany => ?_, hbusy⟩
  -- a run of refusals that is too long ends with this refusal, or it was too long before
  by_cases hother : stream = other
  · have hafter := Overheard.answers_poll hpoll other
    rw [if_pos hother] at hafter
    rw [hafter, List.infix_concat_iff, ← hafter] at hmany
    rcases hmany with hlast | hearlier
    · have := hbusy other _ hlast
      omega
    · exact h.patient other hearlier
  · rw [Overheard.answers_poll hpoll, if_neg hother, List.append_nil] at hmany
    exact h.patient other hmany

/-- An entry is taken when the recovery is over, and starts it again. -/
theorem taken (h : Rested patience before) (hpoll : Transport.poll entry.stream before = .ok (false, polled))
    (hpush : Transport.push entry polled = .ok after) : Rested patience after := by
  obtain ⟨hpoll', -⟩ := Overheard.poll_eq_ok_iff.mp hpoll
  obtain ⟨hrecovery, -, -, hsame⟩ := poll_busy (poll_eq_ok_iff.mp hpoll')
  have htransport : polled.transport.push entry = after.transport :=
    Except.ok.inj (Overheard.push_eq_ok_iff.mp hpush).1
  have hafter : after.transport.recovery = before.transport.recovery := htransport ▸ hrecovery
  have hanswers (other : Stream) :
      after.answers other = before.answers other ++ if entry.stream = other then [false] else [] :=
    (Overheard.answers_push hpush other).trans (Overheard.answers_poll hpoll other)
  refine ⟨fun other => hafter ▸ h.recovery other, fun other hmany => ?_, fun other refusals hrefusals => ?_⟩
  · rw [hanswers] at hmany
    by_cases hother : entry.stream = other
    · rw [if_pos hother, List.infix_concat_iff, List.replicate_succ', List.suffix_concat_iff] at hmany
      rcases hmany with (hnil | ⟨_, hlast, _⟩) | hearlier
      · simp at hnil
      · simp at hlast
      · rw [← List.replicate_succ'] at hearlier
        exact h.patient other hearlier
    · rw [if_neg hother, List.append_nil] at hmany
      exact h.patient other hmany
  · rw [hanswers] at hrefusals
    by_cases hother : entry.stream = other
    · subst hother
      have hbusy : after.transport.busy.get entry.stream = polled.transport.recovery.get entry.stream := by
        rw [← htransport, push, PerStream.get_set_self]
      rw [if_pos rfl] at hrefusals
      cases refusals with
      | zero =>
        rw [hbusy, hrecovery, Nat.zero_add]
        exact h.recovery _
      | succ refusals =>
        rw [List.replicate_succ', List.suffix_concat_iff] at hrefusals
        rcases hrefusals with hnil | ⟨_, hlast, _⟩
        · simp at hnil
        · simp at hlast
    · have hbusy : after.transport.busy.get other = before.transport.busy.get other := by
        rw [← htransport, push, PerStream.get_set_of_ne _ _ (Ne.symm hother), hsame other (.inr rfl)]
      rw [if_neg hother, List.append_nil] at hrefusals
      rw [hbusy]
      exact h.busy other refusals hrefusals

theorem keeps (schedule : Schedule) (patience : Nat) :
    Feed.Keeps fun left overheard => schedule.Parted left overheard ∧ Rested patience overheard where
  refused h hpoll := ⟨Schedule.Parted.keeps.refused h.1 hpoll, h.2.refused hpoll⟩
  taken h hnext hpoll hpush := by
    obtain rfl := h.1.stream_eq hnext
    exact ⟨Schedule.Parted.keeps.taken h.1 hnext hpoll hpush, h.2.taken hpoll hpush⟩

end Rested

/-- A transport that recovers within a number of polls is patient. -/
theorem patientlyFed (schedule : Schedule) {transport : PacedTransport}
    (hrecovery : ∀ stream, transport.recovery.get stream ≤ patience)
    (hbusy : ∀ stream, transport.busy.get stream ≤ patience) : schedule.PatientlyFed patience transport := by
  intro count feed overheard hfill
  have hnothing (length : Nat) (h : List.replicate length true <:+: []) : length = 0 := by
    simpa using List.eq_nil_of_infix_nil h
  have hrested : Rested patience ⟨transport, []⟩ := by
    refine ⟨hrecovery, fun stream h => (nomatch hnothing _ h), fun stream refusals h => ?_⟩
    rw [hnothing refusals h.isInfix, Nat.zero_add]
    exact hbusy stream
  have hstart := schedule.left_ofSchedule ▸ Schedule.Parted.start schedule transport
  exact ((Rested.keeps schedule patience).fillTimes ⟨hstart, hrested⟩ hfill).2.patient

/-- Nothing goes wrong with a paced transport. -/
theorem not_causes (cause : Fault) : ¬Feed.Causes PacedTransport cause := by
  rintro ⟨transport, ⟨stream, h⟩ | ⟨entry, h⟩⟩ <;> cases h

end PacedTransport

/-- Feeding delivers a schedule. Whatever transport it is fed to and however that answers, at any time each stream has
arrived up to where it is, in order and without a blind push; with a patient transport feeding comes to its end. A
device that is fed takes a cycle for every call, counts every push and drops nothing: in each of its queues is what was
pushed after the entries that its stages took. -/
theorem feeding_delivers (schedule : Schedule) :
    (∀ (σ : Type) [Transport σ] (transport : σ), schedule.FedTo transport) ∧
      ∀ (device after : Device) (count : Nat) (feed : Feed),
        Feed.fillTimes count (.ofSchedule schedule) device = .ok (feed, after) →
        ∃ calls, Feed.fillTimes count (.ofSchedule schedule) (⟨device, []⟩ : Overheard Device) =
          .ok (feed, ⟨after, calls⟩) ∧ device.Fed ⟨after, calls⟩ := by
  refine ⟨fun σ _ transport => schedule.fedTo transport, fun device after count feed hfill => ?_⟩
  rw [← (schedule.fedTo device).heard count] at hfill
  obtain ⟨⟨fed, overheard⟩, hheard, hfill⟩ := map_eq_ok_iff.mp hfill
  obtain ⟨rfl, rfl⟩ := Prod.mk.inj hfill
  have hstart := schedule.left_ofSchedule ▸ Schedule.Parted.start schedule device
  exact ⟨overheard.calls, hheard, ((Device.Fed.keeps schedule device).fillTimes ⟨hstart, .refl device⟩ hheard).2⟩

/-- A device whose queues hold one entry each, with its stages on. -/
def narrowDevice : Device :=
  { Device.ofGeometry { Geometry.reference with queueEntries := 1 } with enabled := .all true }

/-- A transport that recovers from every push for two polls takes the schedule of two steps, and so does a device with
queues of one entry, in two passes. -/
theorem feeding_delivers_small :
    ∃ schedule after, smallLayout.schedule smallResidency = .ok (schedule, after) ∧
      (∃ feed transport, Feed.drain ((2 + 1) * schedule.longest) (.ofSchedule schedule)
        (⟨⟨.all 2, .all 2⟩, ⟨.all 0, .all 0⟩, 0, []⟩ : PacedTransport) = .ok (feed, transport) ∧
        feed.allPushed = true) ∧
      ∃ feed device calls, Feed.fillTimes 2 (.ofSchedule schedule) narrowDevice = .ok (feed, device) ∧
        feed.allPushed = true ∧ narrowDevice.Fed ⟨device, calls⟩ := by
  have hfed : (smallLayout.schedule smallResidency).toOption.bind (fun written =>
      (Feed.fillTimes 2 (.ofSchedule written.1) narrowDevice).toOption.map fun fed => fed.1.allPushed) =
        some true := by
    decide +kernel
  obtain ⟨⟨schedule, after⟩, hschedule, hfed⟩ := Option.bind_eq_some_iff.mp hfed
  obtain ⟨⟨fed, device⟩, hfill, hpushed⟩ := Option.map_eq_some_iff.mp hfed
  have hfill := toOption_eq_some_iff.mp hfill
  obtain ⟨htransports, hdevices⟩ := feeding_delivers schedule
  obtain ⟨calls, -, hsupplied⟩ := hdevices narrowDevice device 2 fed hfill
  refine ⟨schedule, after, toOption_eq_some_iff.mp hschedule, ?_, fed, device, calls, hfill, hpushed, hsupplied⟩
  have hpatient : schedule.PatientlyFed 2 (⟨⟨.all 2, .all 2⟩, ⟨.all 0, .all 0⟩, 0, []⟩ : PacedTransport) := by
    refine PacedTransport.patientlyFed schedule ?_ ?_
    · rintro (_ | _) <;> simp [PerStream.get]
    · rintro (_ | _) <;> simp [PerStream.get]
  rcases (htransports PacedTransport _).ends 2 hpatient with ⟨feed, transport, hdrain, hpushed, -⟩ | h
  · exact ⟨feed, transport, hdrain, hpushed⟩
  · obtain ⟨cause, -, hcauses⟩ := h
    exact absurd hcauses (PacedTransport.not_causes cause)

end BitSerial
