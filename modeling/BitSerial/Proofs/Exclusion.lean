import BitSerial.Proofs.Positions
import BitSerial.Proofs.Driving

/-! # Exclusion in the double buffers

The regions are only counted, while the commands name their slots. That two stages never meet in one slot rests on both
keeping step: the counts bound how far a stage runs ahead of its neighbour, and within that distance the slots of a
schedule do not come round again.
-/

namespace BitSerial

/-- Whether a stage works on an operation or hands its regions on. -/
def Device.Works (device : Device) (stage : Stage) : Prop :=
  (device.stages.get stage).activity.state = .run ∨ (device.stages.get stage).activity.state = .send

/-- How the stages of a device keep out of each other's way in the buffers, when each stage has completed as many
instructions of a schedule as given. An output tile takes a fixed number of steps. -/
structure Exclusive (schedule : Schedule) (steps : Nat) (device : Device) (done : Stage → Nat) : Prop where
  /-- A stage is at the instruction after those that it completed. -/
  current : ∀ stage operation, (device.stages.get stage).activity.operation? = some operation →
    (schedule.program stage)[done stage]? = some operation
  /-- The fetch stage works one step ahead of the execute stage, in the other operand slot. -/
  operand : device.Works .fetch → device.Works .execute → done .fetch = done .execute + 1 ∧
    ∀ fetch execute, schedule.fetch[done .fetch]? = some fetch → schedule.execute[done .execute]? = some execute →
      fetch.command.slot ≠ execute.command.operandSlot
  /-- No step is executed before it was fetched. -/
  fetched : device.Works .execute → done .execute < done .fetch
  /-- No step is fetched before the one that had its slot was executed. -/
  executed : device.Works .fetch → ∀ step, done .fetch = step + 2 → step < done .execute
  /-- The first step of an output tile takes a result region and the last one hands it on. -/
  marked : ∀ position execute, schedule.execute[position]? = some execute →
    (execute.command.clear = true ↔ position % steps = 0) ∧
      (execute.command.commit = true ↔ position % steps + 1 = steps)
  /-- While an output tile is accumulated, no tile that was handed on and is still to be written out is in its slot. -/
  result : ∀ tile earlier,
    tile * steps < done .execute ∨ tile * steps = done .execute ∧ device.Works .execute →
    done .execute < (tile + 1) * steps → (earlier + 1) * steps ≤ done .execute → done .result ≤ earlier →
    ∀ position execute result, position / steps = tile → schedule.execute[position]? = some execute →
      schedule.result[earlier]? = some result → result.command.slot ≠ execute.command.resultSlot
  /-- No output tile is written out before its last step handed it on. -/
  committed : device.Works .result → (done .result + 1) * steps ≤ done .execute

variable {schedule : Schedule} {steps : Nat} {first : Stage → Nat} {left : Backlog} {device : Device}
  {done : Stage → Nat}

/-- A flow of a schedule whose slots go round excludes. -/
theorem Flow.exclusive (hrotates : schedule.Rotates steps)
    (h : Flow schedule.program first left device.stages device.handoff done) :
    Exclusive schedule steps device done := by
  obtain ⟨hoperandFree, hoperandFull, hresultFree, hresultFull, -, -⟩ := h.spread hrotates
  have hworks (stage : Stage) (hstage : device.Works stage) : (device.stages.get stage).activity.held = 1 :=
    (Activity.held_eq_one_iff _).mpr hstage
  constructor
  case current => exact fun stage => (h.lane stage).inFlight
  case operand =>
    intro hfetch hexecute
    rw [hworks .fetch hfetch] at hoperandFree
    rw [hworks .execute hexecute] at hoperandFull
    have hahead : done .fetch = done .execute + 1 := by
      unfold operandSlots at hoperandFree
      omega
    refine ⟨hahead, fun fetch execute hfetchAt hexecuteAt => ?_⟩
    rw [hrotates.fetch _ _ hfetchAt, (hrotates.execute _ _ hexecuteAt).1, hahead]
    unfold operandSlots
    omega
  case fetched =>
    intro hexecute
    rw [hworks .execute hexecute] at hoperandFull
    omega
  case executed =>
    intro hfetch step hstep
    rw [hworks .fetch hfetch, hstep] at hoperandFree
    unfold operandSlots at hoperandFree
    omega
  case marked => exact fun position execute hat => (hrotates.execute position execute hat).2.2
  case result =>
    intro tile earlier hopened hopen hcommitted hundrained position execute result htile hexecute hresult
    have hpos : 0 < steps := Nat.pos_of_mul_pos_left (Nat.zero_lt_of_lt hopen)
    -- the tile after the earlier one is the one that is open: two regions allow no more
    have hbefore : earlier < tile :=
      Nat.lt_of_succ_lt_succ (Nat.lt_of_mul_lt_mul_right (Nat.lt_of_le_of_lt hcommitted hopen))
    have hcount : tile * steps < done .execute + (device.stages.get .execute).activity.held := by
      rcases hopened with hlt | ⟨heq, hworking⟩
      · exact Nat.lt_add_right _ hlt
      · rw [hworks .execute hworking, heq]
        exact Nat.lt_succ_self _
    have hopens : tile + 1 ≤
        (done .execute + (device.stages.get .execute).activity.held + (steps - 1)) / steps := by
      rw [Nat.le_div_iff_mul_le hpos, Nat.succ_mul]
      omega
    have hafter : tile = earlier + 1 := by
      unfold resultSlots at hresultFree
      omega
    rw [hrotates.result _ _ hresult, (hrotates.execute _ _ hexecute).2.1, htile, hafter]
    unfold resultSlots
    omega
  case committed =>
    intro hresult
    rw [hworks .result hresult] at hresultFull
    have hdone : done .result + 1 ≤ done .execute / steps := by omega
    rcases Nat.eq_zero_or_pos steps with rfl | hpos
    · simp at hdone
    · exact (Nat.le_div_iff_mul_le hpos).mp hdone

/-- Whatever the host does and however the stages are delayed, they keep out of each other's way: this holds of every
state that a device at rest can reach while any schedule is streamed through it. -/
theorem double_buffers_exclusive {layout : Layout} {residency after : Residency} {schedule : Schedule}
    (hschedule : layout.schedule residency = .ok (schedule, after)) {start recorded : Recorded}
    (hrest : start.device.Quiescent) {left : Backlog} (hreached : Reached schedule.program start left recorded) :
    Exclusive schedule schedule.nest.stepCount recorded.device (start.device.doneSince recorded.device) := by
  obtain ⟨bandPairs, stepList, results, hwritten⟩ := Layout.schedule_written hschedule
  rw [hwritten.nest]
  exact (hreached.flow schedule.program_staged hrest).exclusive hwritten.rotates

/-- A product of two steps, with all its tiles on chip. -/
def smallLayout : Layout where
  geometry := .reference
  gemm := ⟨⟨8, 8, 512, 512, 2, false⟩, ⟨8, 8, 512, 512, 1, false⟩⟩
  plan := {
    lhs := ⟨8, 256, 512, 2, 512, 1, 512, 8, 1, 2, .software⟩
    rhs := ⟨8, 256, 512, 2, 512, 1, 512, 8, 1, 1, .software⟩
    stripes := 2
    bandStripes := 2
    commonTiles := 1 }
  addresses := ⟨0, 1024, 2048⟩

/-- The tiles of the small product, each in its slot. -/
def smallResidency : Residency := { Residency.fresh with tiles := ⟨⟨some 0, some 512⟩, ⟨some 1024, some 1024⟩⟩ }

/-- The reference device after the queues were filled with the small product and it was polled a number of times. -/
def smallStream (schedule : Schedule) (polls : Nat) : Except Fault (Session.LoopEnd × Recorded) := do
  let (_, recorded) ← Session.start schedule (⟨Device.ofGeometry .reference, []⟩ : Recorded)
  Session.awaitResult ⟨none, false⟩ (.still false) polls 0 recorded

/-- After six polls the second step is fetched while the first one is executed. -/
theorem double_buffers_exclusive_small :
    ∃ schedule after left recorded, smallLayout.schedule smallResidency = .ok (schedule, after) ∧
      (Device.ofGeometry .reference).Quiescent ∧
      Reached schedule.program ⟨Device.ofGeometry .reference, []⟩ left recorded ∧
      recorded.device.Works .fetch ∧ recorded.device.Works .execute ∧
      Exclusive schedule schedule.nest.stepCount recorded.device
        ((Device.ofGeometry .reference).doneSince recorded.device) := by
  have hrest := Device.ofGeometry_quiescent .reference
  have hstates : (smallLayout.schedule smallResidency).toOption.bind (fun (schedule, _) =>
      (smallStream schedule 6).toOption.map fun (_, recorded) =>
        ((recorded.device.stages.get .fetch).activity.state, (recorded.device.stages.get .execute).activity.state)) =
      some (.run, .send) := by
    decide +kernel
  cases hschedule : smallLayout.schedule smallResidency with
  | error failure => rw [hschedule] at hstates; cases hstates
  | ok written =>
    obtain ⟨schedule, after⟩ := written
    rw [hschedule] at hstates
    cases hstream : smallStream schedule 6 with
    | error cause => simp [Except.toOption, hstream] at hstates
    | ok streamed =>
      obtain ⟨ended, recorded⟩ := streamed
      simp only [Except.toOption, hstream, Option.bind_some, Option.map_some, Option.some.injEq,
        Prod.mk.injEq] at hstates
      simp only [smallStream, bind_eq_ok_iff, Prod.exists] at hstream
      obtain ⟨feed, started, hstart, hwait⟩ := hstream
      have hreached := (Reached.operated.awaitResult (Reached.operated.start .start hstart) hwait).1
      exact ⟨schedule, after, _, recorded, rfl, hrest, hreached, .inl hstates.1, .inr hstates.2,
        double_buffers_exclusive hschedule hrest hreached⟩

end BitSerial
