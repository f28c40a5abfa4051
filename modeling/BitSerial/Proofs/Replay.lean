import BitSerial.Proofs.OnChip
import BitSerial.Proofs.Traffic

/-! # Schedules from what others left on chip

A schedule depends on the tracker only through the tiles that the tracker knows, and what it leaves known are the tiles
of its last two steps, whatever was known before. The second of two schedules in a row thus begins with what every
later one begins with, too.
-/

namespace BitSerial

namespace Residency

theorem known_eq_of_get {first second : Residency} {operand : Operand}
    (h : first.tiles.get operand = second.tiles.get operand) (slot : Nat) :
    first.known operand slot = second.known operand slot := by
  rw [known, known, h]

theorem known_eq_of_tiles {first second : Residency} (h : first.tiles = second.tiles) (operand : Operand) (slot : Nat) :
    first.known operand slot = second.known operand slot :=
  known_eq_of_get (congrArg (·.get operand) h) slot

/-- Two trackers that know the same tiles of an operand in both slots have the same entries for it. -/
theorem get_eq_of_known {first second : Residency} {operand : Operand}
    (h : ∀ slot < operandSlots, first.known operand slot = second.known operand slot) :
    first.tiles.get operand = second.tiles.get operand := by
  have hzero := h 0 (by decide)
  have hone := h 1 (by decide)
  simp only [known, SlotPair.value, if_true, if_neg Nat.one_ne_zero] at hzero hone
  generalize first.tiles.get operand = pair at hzero hone ⊢
  generalize second.tiles.get operand = other at hzero hone ⊢
  cases pair
  cases other
  cases hzero
  cases hone
  rfl

/-- Two trackers that know the same tiles in both slots have the same table. -/
theorem tiles_eq_of_known {first second : Residency}
    (h : ∀ operand slot, slot < operandSlots → first.known operand slot = second.known operand slot) :
    first.tiles = second.tiles := by
  have hlhs := get_eq_of_known (h .lhs)
  have hrhs := get_eq_of_known (h .rhs)
  generalize first.tiles = tiles at hlhs hrhs ⊢
  generalize second.tiles = others at hlhs hrhs ⊢
  cases tiles
  cases others
  cases hlhs
  cases hrhs
  rfl

end Residency

/-- Two chains whose links agree side by side in a view of their entries agree in it throughout. -/
theorem Chain.alike {α β γ : Type} {link : Nat → β → α → β → Prop} (view : α → γ) (relates : β → β → Prop)
    {position : Nat} {state other last otherLast : β} {list entries : List α} (h : Chain link position state list last)
    (hother : Chain link position other entries otherLast) (hlength : list.length = entries.length)
    (hstart : relates state other)
    (hlink : ∀ {position state other first entry next otherNext}, relates state other →
      link position state first next → link position other entry otherNext →
      view first = view entry ∧ relates next otherNext) :
    list.map view = entries.map view ∧ relates last otherLast := by
  induction h generalizing other entries with
  | nil =>
    cases hother with
    | nil => exact ⟨rfl, hstart⟩
    | cons => cases hlength
  | cons hfirst _ ih =>
    cases hother with
    | nil => cases hlength
    | cons hentry hentries =>
      obtain ⟨hsame, hnext⟩ := hlink hstart hfirst hentry
      obtain ⟨hrest, hend⟩ := ih hentries (Nat.succ.inj hlength) hnext
      exact ⟨by rw [List.map_cons, List.map_cons, hsame, hrest], hend⟩

/-- Two chains whose links agree side by side are of the same entries. -/
theorem Chain.unique {α β : Type} {link : Nat → β → α → β → Prop} (relates : β → β → Prop) {position : Nat}
    {state other last otherLast : β} {list entries : List α} (h : Chain link position state list last)
    (hother : Chain link position other entries otherLast) (hlength : list.length = entries.length)
    (hstart : relates state other)
    (hlink : ∀ {position state other first entry next otherNext}, relates state other →
      link position state first next → link position other entry otherNext →
      first = entry ∧ relates next otherNext) :
    list = entries ∧ relates last otherLast := by
  have halike := h.alike id relates hother hlength hstart hlink
  rwa [List.map_id, List.map_id] at halike

namespace Layout

variable {layout : Layout} {bandPairs position : Nat}

/-- Whether a tile is transferred depends on what is known of its slot alone. -/
theorem transfer?_unique {operand : Operand} {slot address : Nat} {block otherBlock : Option FetchBlock}
    {residency after other otherAfter : Residency} (hslot : slot < operandSlots)
    (h : layout.transfer? operand slot address residency = .ok (block, after))
    (hother : layout.transfer? operand slot address other = .ok (otherBlock, otherAfter))
    (hknown : residency.known operand slot = other.known operand slot) : block = otherBlock := by
  simp only [transfer?, bind_eq_ok_iff, Prod.exists] at h hother
  obtain ⟨hit, next, haccess, h⟩ := h
  obtain ⟨otherHit, otherNext, hotherAccess, hother⟩ := hother
  have hiff := (Residency.access_asked hslot haccess).hit_iff
  rw [hknown, ← (Residency.access_asked hslot hotherAccess).hit_iff] at hiff
  obtain rfl := Bool.eq_iff_iff.mpr hiff
  cases hit with
  | true =>
    cases h
    cases hother
    rfl
  | false =>
    simp only [Bool.false_eq_true, if_false, bind_eq_ok_iff, pure_eq_ok_iff, Prod.mk.injEq] at h hother
    obtain ⟨found, hfound, rfl, _⟩ := h
    obtain ⟨otherFound, hotherFound, rfl, _⟩ := hother
    rw [hfound] at hotherFound
    cases hotherFound
    rfl

/-- A tile that is known to be in its slot is not transferred. -/
theorem transfer?_of_known {operand : Operand} {slot address : Nat} {block : Option FetchBlock}
    {residency after : Residency} (hslot : slot < operandSlots)
    (h : layout.transfer? operand slot address residency = .ok (block, after))
    (hknown : residency.known operand slot = .ofAddress address) (haddress : address ≠ Word64.size - 1) :
    block = none := by
  simp only [transfer?, bind_eq_ok_iff, Prod.exists] at h
  obtain ⟨hit, next, haccess, h⟩ := h
  have hhit : hit = true := by
    refine (Residency.access_asked hslot haccess).hit_iff.mpr ⟨?_, hknown⟩
    rw [TileIdentity.ofAddress_of_ne haddress]
    exact Option.some_ne_none _
  rw [if_pos hhit] at h
  cases h
  rfl

/-- A step whose tiles are known to be in its slot transfers nothing. -/
theorem StepWritten.nothing_of_known {output step bytes : Nat} {addresses : PerOperand Nat}
    {blocks : PerOperand (Option FetchBlock)} {start middle last : Residency}
    (h : layout.StepWritten output step addresses blocks start middle last bytes)
    (hknown : ∀ operand, start.known operand (layout.stepSlot output step) = .ofAddress (addresses.get operand))
    (haddress : ∀ operand, addresses.get operand ≠ Word64.size - 1) : bytes = 0 := by
  have hslot := layout.stepSlot_lt output step
  obtain ⟨⟨_, hasked⟩, _⟩ := transfer?_eq_ok hslot h.lhs
  have hlhs := transfer?_of_known hslot h.lhs (hknown .lhs) (haddress .lhs)
  have hrhs := transfer?_of_known hslot h.rhs ((hasked.others .rhs _ hslot (.inl nofun)).trans (hknown .rhs))
    (haddress .rhs)
  obtain ⟨_, rfl⟩ := FetchCommand.bytes_eq_ok_iff.mp h.bytes
  change blocks.lhs.elim 0 FetchBlock.bytes + blocks.rhs.elim 0 FetchBlock.bytes = 0
  rw [hlhs, hrhs]
  rfl

/-- Whether a step transfers the tile of an operand depends on what is known of that operand alone. -/
theorem StepWritten.unique {output step bytes otherBytes : Nat} {addresses otherAddresses : PerOperand Nat}
    {blocks otherBlocks : PerOperand (Option FetchBlock)}
    {start middle last otherStart otherMiddle otherLast : Residency} {operand : Operand}
    (h : layout.StepWritten output step addresses blocks start middle last bytes)
    (hother : layout.StepWritten output step otherAddresses otherBlocks otherStart otherMiddle otherLast otherBytes)
    (hstart : start.tiles.get operand = otherStart.tiles.get operand) :
    blocks.get operand = otherBlocks.get operand ∧ last.tiles.get operand = otherLast.tiles.get operand := by
  have hslot := layout.stepSlot_lt output step
  have haddress (operand : Operand) : addresses.get operand = otherAddresses.get operand :=
    Except.ok.inj ((h.address operand).symm.trans (hother.address operand))
  obtain rfl : addresses = otherAddresses := by
    cases addresses
    cases otherAddresses
    exact congrArg₂ PerOperand.mk (haddress .lhs) (haddress .rhs)
  have hknown := Residency.known_eq_of_get hstart
  constructor
  · cases operand with
    | lhs => exact transfer?_unique hslot h.lhs hother.lhs (hknown _)
    | rhs =>
      apply transfer?_unique hslot h.rhs hother.rhs
      -- asking for the left tile says nothing about the right one
      obtain ⟨⟨_, hasked⟩, _⟩ := transfer?_eq_ok hslot h.lhs
      obtain ⟨⟨_, hotherAsked⟩, _⟩ := transfer?_eq_ok hslot hother.lhs
      rw [hasked.others .rhs _ hslot (.inl nofun), hotherAsked.others .rhs _ hslot (.inl nofun)]
      exact hknown _
  · apply Residency.get_eq_of_known
    intro slot hlt
    obtain ⟨⟨hasked, hothers⟩, _⟩ := h.known operand
    obtain ⟨⟨hotherAsked, hotherOthers⟩, _⟩ := hother.known operand
    by_cases hsame : slot = layout.stepSlot output step
    · rw [hsame, hasked, hotherAsked]
    · rw [hothers slot hlt hsame, hotherOthers slot hlt hsame]
      exact hknown slot

/-- A step is written in one way from what is known. -/
theorem StepLink.unique {before other after otherAfter : Residency × Nat} {written entry : Step}
    (hbefore : before.1.tiles = other.1.tiles ∧ before.2 = other.2)
    (h : layout.StepLink bandPairs position before written after)
    (hother : layout.StepLink bandPairs position other entry otherAfter) :
    written = entry ∧ after.1.tiles = otherAfter.1.tiles ∧ after.2 = otherAfter.2 := by
  obtain ⟨addresses, blocks, middle, bytes, hwritten, hbytes, rfl⟩ := h
  obtain ⟨otherAddresses, otherBlocks, otherMiddle, otherBytes, hentry, hotherBytes, rfl⟩ := hother
  have hunique (operand : Operand) := hwritten.unique hentry (congrArg (·.get operand) hbefore.1)
  obtain rfl : blocks = otherBlocks := by
    cases blocks
    cases otherBlocks
    exact congrArg₂ PerOperand.mk (hunique .lhs).1 (hunique .rhs).1
  obtain rfl : bytes = otherBytes := Except.ok.inj (hwritten.bytes.symm.trans hentry.bytes)
  refine ⟨rfl, Residency.tiles_eq_of_known fun operand slot _ => ?_, ?_⟩
  · exact Residency.known_eq_of_get (hunique operand).2 slot
  · rw [hbytes, hotherBytes, hbefore.2]

theorem ResultLink.unique {before other after otherAfter : Nat} {written entry : Instruction ResultCommand}
    (hbefore : before = other) (h : layout.ResultLink bandPairs position before written after)
    (hother : layout.ResultLink bandPairs position other entry otherAfter) : written = entry ∧ after = otherAfter := by
  obtain ⟨bytes, hcommand, _, hbytes, rfl, htoken⟩ := h
  obtain ⟨otherBytes, hotherCommand, _, hotherBytes, rfl, hotherToken⟩ := hother
  obtain ⟨command, token⟩ := written
  obtain ⟨otherCommand, otherToken⟩ := entry
  dsimp only at hcommand hbytes htoken hotherCommand hotherBytes hotherToken
  obtain rfl : command = otherCommand := Except.ok.inj (hcommand.symm.trans hotherCommand)
  obtain rfl : bytes = otherBytes := Except.ok.inj (hbytes.symm.trans hotherBytes)
  rw [htoken, hotherToken, hbefore]
  exact ⟨rfl, rfl⟩

/-- A schedule, and what is known after it, depends on nothing but what was known before it. -/
theorem schedule_unique {schedule other : Schedule} {start last otherStart otherLast : Residency}
    (htiles : start.tiles = otherStart.tiles) (h : layout.schedule start = .ok (schedule, last))
    (hother : layout.schedule otherStart = .ok (other, otherLast)) :
    schedule = other ∧ last.tiles = otherLast.tiles := by
  obtain ⟨hplan, bandPairs, steps, results, hpairs, hwritten⟩ := schedule_written_for h
  obtain ⟨hotherPlan, otherPairs, otherSteps, otherResults, hotherPairs, hotherWritten⟩ := schedule_written_for hother
  obtain rfl : bandPairs = otherPairs := Except.ok.inj (hpairs.symm.trans hotherPairs)
  obtain ⟨rfl, hend⟩ := Chain.unique
    (fun (before other : Residency × Nat) => before.1.tiles = other.1.tiles ∧ before.2 = other.2)
    hwritten.steps_chain hotherWritten.steps_chain (hwritten.steps_length.trans hotherWritten.steps_length.symm)
    ⟨htiles, rfl⟩ StepLink.unique
  obtain ⟨rfl, hwriteBytes⟩ := Chain.unique Eq hwritten.results_chain hotherWritten.results_chain
    (hwritten.results_length.trans hotherWritten.results_length.symm) rfl ResultLink.unique
  have hresult : schedule.result = other.result := Except.ok.inj (hwritten.result.symm.trans hotherWritten.result)
  refine ⟨?_, hend.1⟩
  have hnest := hwritten.nest.trans hotherWritten.nest.symm
  have hfetch := hwritten.fetch.trans hotherWritten.fetch.symm
  have hexecute := hwritten.execute.trans hotherWritten.execute.symm
  have hfetchBytes : schedule.traffic.fetchBytes = other.traffic.fetchBytes := hend.2
  obtain ⟨plan, nest, fetch, execute, result, fetchBytes, writeBytes⟩ := schedule
  obtain ⟨otherPlan, otherNest, otherFetch, otherExecute, otherResult, otherFetchBytes, otherWriteBytes⟩ := other
  dsimp only at hplan hotherPlan hnest hfetch hexecute hresult hfetchBytes hwriteBytes
  rw [hplan, hotherPlan, hnest, hfetch, hexecute, hresult, hfetchBytes, hwriteBytes]

/-- What a schedule transfers of an operand, step by step, depends on what was known of that operand alone. -/
theorem schedule_blocks_unique {operand : Operand} {schedule other : Schedule}
    {start last otherStart otherLast : Residency}
    (htiles : start.tiles.get operand = otherStart.tiles.get operand) (h : layout.schedule start = .ok (schedule, last))
    (hother : layout.schedule otherStart = .ok (other, otherLast)) :
    schedule.fetch.map (·.command.blocks.get operand) = other.fetch.map (·.command.blocks.get operand) := by
  obtain ⟨_, bandPairs, steps, results, hpairs, hwritten⟩ := schedule_written_for h
  obtain ⟨_, otherPairs, otherSteps, otherResults, hotherPairs, hotherWritten⟩ := schedule_written_for hother
  obtain rfl : bandPairs = otherPairs := Except.ok.inj (hpairs.symm.trans hotherPairs)
  rw [hwritten.fetch, hotherWritten.fetch, List.map_map, List.map_map]
  refine (Chain.alike _ (fun (before other : Residency × Nat) =>
    before.1.tiles.get operand = other.1.tiles.get operand) hwritten.steps_chain hotherWritten.steps_chain
    (hwritten.steps_length.trans hotherWritten.steps_length.symm) htiles ?_).1
  rintro position before other written entry after otherAfter hbefore ⟨_, _, _, _, hstep, _, rfl⟩
    ⟨_, _, _, _, hentry, _, rfl⟩
  exact hstep.unique hentry hbefore

/-- What a tracker knows after a number of steps: the tiles of the last two of them, and in a slot that no step has
used yet what it knew before. -/
structure Remembers (layout : Layout) (start : Residency) (count : Nat) (residency : Residency) : Prop where
  recent : ∀ position < count, count ≤ position + operandSlots → ∀ operand, ∃ address,
    layout.neededAddress operand (position / layout.nest.stepCount) (position % layout.nest.stepCount) = .ok address ∧
      residency.known operand (position % operandSlots) = .ofAddress address
  untouched : ∀ slot < operandSlots, count ≤ slot → ∀ operand, residency.known operand slot = start.known operand slot

theorem Remembers.step {start : Residency} {before after : Residency × Nat} {written : Step}
    (h : layout.Remembers start position before.1) (hlink : layout.StepLink bandPairs position before written after) :
    layout.Remembers start (position + 1) after.1 := by
  obtain ⟨addresses, blocks, middle, bytes, hwritten, _, _⟩ := hlink
  have hknown (operand : Operand) := (hwritten.known operand).1
  simp only [stepSlot_eq] at hknown
  constructor
  case recent =>
    intro earlier hearlier hrecent operand
    obtain ⟨hasked, hothers⟩ := hknown operand
    rcases Nat.lt_succ_iff_lt_or_eq.mp hearlier with hlt | rfl
    · obtain ⟨address, haddress, hbefore⟩ := h.recent earlier hlt (Nat.le_of_succ_le hrecent) operand
      refine ⟨address, haddress, ?_⟩
      rw [hothers _ (Nat.mod_lt _ (by decide)) ?_, hbefore]
      unfold operandSlots at hrecent ⊢
      omega
    · exact ⟨_, hwritten.address operand, hasked⟩
  case untouched =>
    intro slot hslot hunused operand
    obtain ⟨_, hothers⟩ := hknown operand
    rw [hothers slot hslot ?_, h.untouched slot hslot (Nat.le_of_succ_le hunused) operand]
    unfold operandSlots at hslot ⊢
    omega

namespace ScheduleWritten

variable {schedule : Schedule} {start last : Residency} {steps : List Step} {results : List (Instruction ResultCommand)}

/-- The trackers of a schedule, by the number of steps before them. -/
theorem trackers (h : layout.ScheduleWritten schedule start last bandPairs steps results) :
    ∃ before : Nat → Residency × Nat, before 0 = (start, 0) ∧
      before steps.length = (last, schedule.traffic.fetchBytes) ∧
      (∀ index (hindex : index < steps.length),
        layout.StepLink bandPairs index (before index) steps[index] (before (index + 1))) ∧
      ∀ count ≤ steps.length, layout.Remembers start count (before count).1 := by
  obtain ⟨before, hzero, hlast, hlink⟩ := h.steps_chain.states
  simp only [Nat.zero_add] at hlink
  refine ⟨before, hzero, hlast, hlink, fun count hcount => ?_⟩
  induction count with
  | zero =>
    rw [hzero]
    exact ⟨fun _ hnone => absurd hnone (Nat.not_lt_zero _), fun _ _ _ _ => rfl⟩
  | succ count ih => exact (ih (Nat.le_of_succ_le hcount)).step (hlink count hcount)

theorem remembers (h : layout.ScheduleWritten schedule start last bandPairs steps results) :
    layout.Remembers start steps.length last := by
  obtain ⟨before, _, hlast, _, hremembers⟩ := h.trackers
  have hend := hremembers steps.length (Nat.le_refl _)
  rwa [hlast] at hend

end ScheduleWritten

/-- What a schedule leaves known, the next one leaves known again. -/
theorem schedule_settled {first second : Schedule} {start again last settled : Residency}
    (h : layout.schedule start = .ok (first, last)) (hagain : again.tiles = last.tiles)
    (hsecond : layout.schedule again = .ok (second, settled)) : settled.tiles = last.tiles := by
  obtain ⟨bandPairs, steps, results, hwritten⟩ := schedule_written h
  obtain ⟨otherPairs, otherSteps, otherResults, hotherWritten⟩ := schedule_written hsecond
  have hlast := hwritten.remembers
  have hsettled := hotherWritten.remembers
  rw [hwritten.steps_length] at hlast
  rw [hotherWritten.steps_length] at hsettled
  generalize layout.nest.outputCount * layout.nest.stepCount = count at hlast hsettled
  apply Residency.tiles_eq_of_known
  intro operand slot hslot
  rcases Nat.lt_or_ge slot count with hused | hunused
  · -- the last step that used the slot
    have hposition :
        ∃ position, position < count ∧ count ≤ position + operandSlots ∧ position % operandSlots = slot := by
      unfold operandSlots at hslot ⊢
      exact ⟨if (count - 1) % 2 = slot then count - 1 else count - 2, by split <;> omega⟩
    obtain ⟨position, hlt, hle, rfl⟩ := hposition
    obtain ⟨address, haddress, hknown⟩ := hlast.recent position hlt hle operand
    obtain ⟨other, hother, hknownAgain⟩ := hsettled.recent position hlt hle operand
    obtain rfl : address = other := Except.ok.inj (haddress.symm.trans hother)
    rw [hknown, hknownAgain]
  · rw [hsettled.untouched slot hslot hunused operand]
    exact Residency.known_eq_of_tiles hagain operand slot

end Layout

end BitSerial
