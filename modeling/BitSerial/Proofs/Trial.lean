import BitSerial.Proofs.History
import BitSerial.Proofs.Placement

/-! # Schedules that were tried

When a session begins, its schedule is tried with the buffers at address zero and nothing on chip. A later schedule is
written for the real addresses and with a tracker that may know more. Step by step it does no more than the trial did:
a tile that the trial found on chip is found, so no byte is fetched that was not fetched in the trial, and addresses
only move by those of the buffers, which are aligned. What could be tried can therefore always be written, as long as
the tracker can count. The trial may also have been made where the buffers are, which is a move by nothing.
-/

namespace BitSerial

namespace Residency

/-- A tracker knows all that another one knows of buffers at address zero. -/
def Covers (residency : Residency) (base : Operand → Nat) (tried : Residency) : Prop :=
  ∀ operand slot offset, slot < operandSlots → tried.known operand slot = some offset →
    residency.known operand slot = some (base operand + offset)

variable {residency tried triedAfter : Residency} {base : Operand → Nat} {operand : Operand} {slot offset : Nat}
  {triedHit : Bool}

theorem covers_unknown (hunknown : tried.tiles = .both (.both none)) : residency.Covers base tried := by
  intro operand slot offset _ hknown
  rw [known, hunknown, PerOperand.get_both] at hknown
  unfold SlotPair.value SlotPair.both at hknown
  split at hknown <;> cases hknown

/-- What the other one finds is found. -/
theorem Covers.access (h : residency.Covers base tried) (hslot : slot < operandSlots)
    (htried : tried.access operand slot (.ofAddress offset) = .ok (triedHit, triedAfter))
    (haddress : base operand + offset ≠ Word64.size - 1) :
    Settles .overflow residency.Full (residency.access operand slot (.ofAddress (base operand + offset))) fun asked =>
      asked.2.Covers base triedAfter ∧ (triedHit = true → asked.1 = true) ∧
        asked.2.hits ≤ residency.hits + 1 ∧ asked.2.misses ≤ residency.misses + 1 := by
  have htriedAsked := access_asked hslot htried
  apply (access_settles hslot operand _).imp id
  rintro ⟨hit, after⟩ _ hasked
  refine ⟨?_, ?_, ?_, ?_⟩
  · intro other otherSlot found hother hknown
    by_cases hsame : other = operand ∧ otherSlot = slot
    · obtain ⟨rfl, rfl⟩ := hsame
      rw [htriedAsked.known] at hknown
      rw [hasked.known, TileIdentity.eq_some_of_ofAddress hknown, TileIdentity.ofAddress_of_ne haddress]
    · have hne : other ≠ operand ∨ otherSlot ≠ slot := not_and_or.mp hsame
      rw [htriedAsked.others other otherSlot hother hne] at hknown
      rw [hasked.others other otherSlot hother hne]
      exact h other otherSlot found hother hknown
  · intro hhit
    obtain ⟨hsome, hknown⟩ := htriedAsked.hit_iff.mp hhit
    obtain ⟨found, hfound⟩ := Option.ne_none_iff_exists'.mp hsome
    rw [hfound, TileIdentity.eq_some_of_ofAddress hfound] at hknown
    rw [hasked.hit_iff, TileIdentity.ofAddress_of_ne haddress]
    exact ⟨nofun, h operand slot offset hslot hknown⟩
  · rw [hasked.hits]
    split <;> omega
  · rw [hasked.misses]
    split <;> omega

end Residency

/-- A transfer is that of a buffer at address zero from where the buffer is, or it is left out. -/
def FetchBlock.Relocated (base : Nat) (tried block : Option FetchBlock) : Prop :=
  block = none ∨ ∃ found, tried = some found ∧ block = some { found with address := base + found.address }

namespace FetchBlock.Relocated

variable {base : Nat} {tried block : Option FetchBlock}

theorem bytes_le (h : Relocated base tried block) : block.elim 0 FetchBlock.bytes ≤ tried.elim 0 FetchBlock.bytes := by
  rcases h with rfl | ⟨found, rfl, rfl⟩
  · exact Nat.zero_le _
  · exact Nat.le_refl _

theorem aligned (h : Relocated base tried block) (hbase : base % addressAlign = 0) {tile : TileIndex}
    {operand : Operand} (haligned : Layout.checkTransfer tile operand tried = .ok ()) :
    Layout.checkTransfer tile operand block = .ok () := by
  rcases h with rfl | ⟨found, rfl, rfl⟩
  · rfl
  · simp only [Layout.checkTransfer, bind_eq_ok_iff, demandShape_eq_ok_iff] at haligned ⊢
    obtain ⟨_, haddress, hsizes⟩ := haligned
    exact ⟨(), by rw [Nat.add_mod, hbase, haddress, Nat.zero_add, Nat.zero_mod], hsizes⟩

end FetchBlock.Relocated

namespace Layout

variable {layout : Layout}

/-- The buffers of a product, as far as addresses depend on them. -/
structure Seated (layout : Layout) : Prop where
  cuts : layout.plan.Cuts layout.geometry layout.gemm
  operand : ∀ operand, ∃ bytes, (layout.gemm.operand operand).bytes = .ok bytes ∧
    layout.addresses.operand operand + bytes < Word64.size - 1
  result : ∃ bytes, layout.gemm.resultBytes = .ok bytes ∧ layout.addresses.result + bytes < Word64.size
  aligned : (∀ operand, layout.addresses.operand operand % addressAlign = 0) ∧
    layout.addresses.result % addressAlign = 0

/-- A layout is written like the one that was tried with its buffers at other addresses: the operands have moved by
whole words of memory, and every tile still has an address that identifies it. -/
structure Follows (layout : Layout) (addresses : Addresses) (base : Operand → Nat) : Prop where
  aligned : ∀ operand, base operand % addressAlign = 0
  address : ∀ operand output step offset, output < layout.nest.outputCount → step < layout.nest.stepCount →
    { layout with addresses }.neededAddress operand output step = .ok offset →
    base operand + offset ≠ Word64.size - 1 ∧
      layout.neededAddress operand output step = .ok (base operand + offset)
  result : ∀ output command, output < layout.nest.outputCount →
    { layout with addresses }.resultCommand output = .ok command → command.address % elementBytes = 0 →
    ∃ address, layout.resultCommand output = .ok { command with address } ∧ address % elementBytes = 0
  resultBytes : ∃ bytes, layout.gemm.resultBytes = .ok bytes

theorem transfer?_of_tried {addresses : Addresses} {base : Operand → Nat} {operand : Operand} {slot offset : Nat}
    {tried triedAfter residency : Residency} {block : Option FetchBlock} (hslot : slot < operandSlots)
    (htried : { layout with addresses }.transfer? operand slot offset tried = .ok (block, triedAfter))
    (hcovers : residency.Covers base tried) (haddress : base operand + offset ≠ Word64.size - 1) :
    Settles .overflow residency.Full (layout.transfer? operand slot (base operand + offset) residency) fun found =>
        found.2.Covers base triedAfter ∧ FetchBlock.Relocated (base operand) block found.1 ∧
          found.2.hits ≤ residency.hits + 1 ∧ found.2.misses ≤ residency.misses + 1 := by
  simp only [transfer?, bind_eq_ok_iff, Prod.exists] at htried
  obtain ⟨triedHit, triedNext, haccess, htried⟩ := htried
  unfold transfer?
  -- a tile that was fetched in the trial may be on chip by now, but not the other way round
  apply (hcovers.access hslot haccess haddress).bind
  rintro ⟨hit, after⟩ ⟨hafter, himplies, hcounts⟩
  cases hit with
  | true =>
    have htriedAfter : triedAfter = triedNext := by
      split at htried
      · cases htried
        rfl
      · simp only [bind_eq_ok_iff, pure_eq_ok_iff, Prod.mk.injEq] at htried
        obtain ⟨_, _, _, rfl⟩ := htried
        rfl
    exact .ok rfl ⟨htriedAfter ▸ hafter, .inl rfl, hcounts⟩
  | false =>
    rw [if_neg fun hhit => nomatch himplies hhit] at htried
    simp only [fetchBlock, bind_eq_ok_iff, pure_eq_ok_iff, Prod.mk.injEq] at htried
    obtain ⟨_, ⟨segment, hsegment, rfl⟩, rfl, rfl⟩ := htried
    have hblock : layout.fetchBlock operand slot (base operand + offset) = .ok _ :=
      bind_eq_ok_iff.mpr ⟨segment, hsegment, rfl⟩
    exact .ok (bind_eq_ok_iff.mpr ⟨_, hblock, rfl⟩) ⟨hafter, .inr ⟨_, rfl, rfl⟩, hcounts⟩

/-- How far a schedule has come at a position, compared to its trial, from a tracker with given counts. -/
structure Keeps (base : Operand → Nat) (start : Residency) (position : Nat) (tried progress : Progress) : Prop where
  covers : progress.residency.Covers base tried.residency
  hits : progress.residency.hits ≤ start.hits + 2 * position
  misses : progress.residency.misses ≤ start.misses + 2 * position
  fetchBytes : progress.traffic.fetchBytes ≤ tried.traffic.fetchBytes
  writeBytes : progress.traffic.writeBytes = tried.traffic.writeBytes

/-- The tracker can count the tiles of a whole schedule. -/
structure Counts (layout : Layout) (start : Residency) : Prop where
  hits : start.hits + 2 * (layout.nest.outputCount * layout.nest.stepCount) < Word64.size
  misses : start.misses + 2 * (layout.nest.outputCount * layout.nest.stepCount) < Word64.size

section Trial

variable {addresses : Addresses} {base : Operand → Nat} {start : Residency} {bandPairs output : Nat}
  {tried triedNext progress : Progress}

/-- Counts with room for all steps are not full while there are steps to come. -/
theorem Counts.not_full (hcounts : layout.Counts start) {position : Nat} {residency : Residency}
    (hposition : position < layout.nest.outputCount * layout.nest.stepCount)
    (hhits : residency.hits ≤ start.hits + 2 * position + 1)
    (hmisses : residency.misses ≤ start.misses + 2 * position + 1) : ¬ residency.Full := by
  have hmostHits := hcounts.hits
  have hmostMisses := hcounts.misses
  rintro (hfull | hfull)
  · omega
  · omega

/-- A step that cannot ask for one of its tiles is not written. -/
theorem writeStep_eq_error {step : Nat} {addresses : PerOperand Nat} {fault : Fault}
    (haddress : ∀ operand, layout.neededAddress operand output step = .ok (addresses.get operand))
    (h : layout.transfer? .lhs (layout.stepSlot output step) addresses.lhs progress.residency = .error fault ∨
      ∃ lhs middle, layout.transfer? .lhs (layout.stepSlot output step) addresses.lhs progress.residency =
          .ok (lhs, middle) ∧
        layout.transfer? .rhs (layout.stepSlot output step) addresses.rhs middle = .error fault) :
    layout.writeStep bandPairs output step progress = .error (.fault fault) := by
  have hlhs := haddress .lhs
  have hrhs := haddress .rhs
  change layout.tileAddress .lhs (layout.nest.stepIndex step).lhsPlane (layout.nest.lhsTile output) _ = _ at hlhs
  change layout.tileAddress .rhs (layout.nest.stepIndex step).rhsPlane (layout.nest.rhsTile output) _ = _ at hrhs
  simp only [stepSlot, PerOperand.get] at hlhs hrhs h
  unfold Layout.writeStep
  rcases h with hstopped | ⟨lhs, middle, hasked, hstopped⟩
  · simp only [hlhs, hrhs, hstopped, lift_ok_bind, lift_error_bind]
  · simp only [hlhs, hrhs, hasked, hstopped, lift_ok_bind, lift_error_bind]

/-- A step of a schedule that was tried is written, unless the counts are full. -/
theorem Follows.writeStep (hfollows : layout.Follows addresses base) {step : Nat} {written : Step}
    (houtput : output < layout.nest.outputCount) (hstep : step < layout.nest.stepCount)
    (hkeeps : Keeps base start (output * layout.nest.stepCount + step) tried progress)
    (htried : { layout with addresses }.writeStep bandPairs output step tried = .ok (written, triedNext)) :
    Settles (.fault .overflow) (¬ layout.Counts start) (layout.writeStep bandPairs output step progress) fun found =>
      Keeps base start (output * layout.nest.stepCount + (step + 1)) triedNext found.2 := by
  obtain ⟨offsets, triedBlocks, triedMiddle, triedBytes, htried, hfits, htraffic, -⟩ := writeStep_eq_ok_iff.mp htried
  have hposition := mul_add_lt_mul houtput hstep
  obtain ⟨hcovers, hhits, hmisses, hfetched, hwritten⟩ := hkeeps
  have hslot := layout.stepSlot_lt output step
  have hplace (operand : Operand) := hfollows.address operand _ _ _ houtput hstep (htried.address operand)
  have haddress : ∀ operand, layout.neededAddress operand output step =
      .ok ((⟨base .lhs + offsets.lhs, base .rhs + offsets.rhs⟩ : PerOperand Nat).get operand) := by
    rintro (_ | _)
    · exact (hplace .lhs).2
    · exact (hplace .rhs).2
  rcases transfer?_of_tried hslot htried.lhs hcovers (hplace .lhs).1 with
    ⟨⟨lhs, middle⟩, hlhs, hmiddle, hlhsBlock, hmiddleHits, hmiddleMisses⟩ | ⟨hlhs, hfull⟩
  case inr =>
    exact .inr ⟨writeStep_eq_error haddress (.inl hlhs), fun hcounts =>
      hcounts.not_full hposition (Nat.le_succ_of_le hhits) (Nat.le_succ_of_le hmisses) hfull⟩
  dsimp only at hmiddle hlhsBlock hmiddleHits hmiddleMisses
  rcases transfer?_of_tried hslot htried.rhs hmiddle (hplace .rhs).1 with
    ⟨⟨rhs, last⟩, hrhs, hlast, hrhsBlock, hlastHits, hlastMisses⟩ | ⟨hrhs, hfull⟩
  case inr =>
    exact .inr ⟨writeStep_eq_error haddress (.inr ⟨lhs, middle, hlhs, hrhs⟩), fun hcounts =>
      hcounts.not_full hposition (by omega) (by omega) hfull⟩
  dsimp only at hlast hrhsBlock hlastHits hlastMisses
  have hbytes := FetchCommand.bytes_eq_ok_iff.mp htried.bytes
  have hle := Nat.add_le_add hlhsBlock.bytes_le hrhsBlock.bytes_le
  have hcommand : (layout.fetchCommand (layout.stepSlot output step) ⟨lhs, rhs⟩).bytes =
      .ok (lhs.elim 0 FetchBlock.bytes + rhs.elim 0 FetchBlock.bytes) :=
    FetchCommand.bytes_eq_ok_iff.mpr ⟨Nat.lt_of_le_of_lt hle hbytes.1, rfl⟩
  have hstepBytes : lhs.elim 0 FetchBlock.bytes + rhs.elim 0 FetchBlock.bytes ≤ triedBytes := hbytes.2 ▸ hle
  have hnext : layout.writeStep bandPairs output step progress = .ok (layout.stepWith bandPairs output step ⟨lhs, rhs⟩,
      ⟨last, { progress.traffic with
        fetchBytes := progress.traffic.fetchBytes + (lhs.elim 0 FetchBlock.bytes + rhs.elim 0 FetchBlock.bytes) }⟩) := by
    refine writeStep_eq_ok_iff.mpr ⟨_, ⟨lhs, rhs⟩, middle, _, ⟨haddress, hlhs, hrhs, ?_, hcommand⟩, ?_, rfl, rfl⟩
    · rintro (_ | _)
      · exact hlhsBlock.aligned (hfollows.aligned .lhs) (htried.aligned .lhs)
      · exact hrhsBlock.aligned (hfollows.aligned .rhs) (htried.aligned .rhs)
    · omega
  refine .ok hnext ⟨hlast, ?_, ?_, ?_, ?_⟩
  · dsimp only; omega
  · dsimp only; omega
  · rw [htraffic]; dsimp only; omega
  · rw [htraffic]; exact hwritten

theorem Follows.writeResult (hfollows : layout.Follows addresses base) {position : Nat}
    {written : Instruction ResultCommand} (houtput : output < layout.nest.outputCount)
    (hkeeps : Keeps base start position tried progress)
    (htried : { layout with addresses }.writeResult bandPairs output tried = .ok (written, triedNext)) :
    ∃ found next, layout.writeResult bandPairs output progress = .ok (found, next) ∧
      Keeps base start position triedNext next := by
  obtain ⟨hfits, hresidency, hfetched, bytes, hcommand, ⟨haddressAligned, hstrideAligned⟩, hbytes, hwritten, htoken⟩ :=
    writeResult_eq_ok_iff.mp htried
  obtain ⟨address, hfound, haligned⟩ := hfollows.result output _ houtput hcommand haddressAligned
  refine ⟨⟨{ written.command with address }, written.token⟩,
    { progress with traffic := { progress.traffic with writeBytes := progress.traffic.writeBytes + bytes } },
    writeResult_eq_ok_iff.mpr ⟨?_, rfl, rfl, bytes, hfound, ⟨haligned, hstrideAligned⟩, hbytes, rfl, htoken⟩, ?_⟩
  · have hsame := hkeeps.writeBytes
    dsimp only
    omega
  · refine ⟨?_, hkeeps.hits, hkeeps.misses, ?_, ?_⟩
    · rw [hresidency]
      exact hkeeps.covers
    · rw [hfetched]
      exact hkeeps.fetchBytes
    · rw [hwritten, ← hkeeps.writeBytes]

/-- What can be written position by position in a trial settles, if each position does. -/
theorem writeEach_of_tried {α : Type} {write triedWrite : Nat → Progress → Except Failure (α × Progress)}
    {stop : Failure} {excuse : Prop} (relates : Nat → Progress → Progress → Prop) {count position : Nat}
    {tried triedLast progress : Progress} {list : List α}
    (hwrite : ∀ index, position ≤ index → index < position + count → ∀ tried progress written triedNext,
      relates index tried progress → triedWrite index tried = .ok (written, triedNext) →
      Settles stop excuse (write index progress) fun found => relates (index + 1) triedNext found.2)
    (h : relates position tried progress)
    (htried : writeEach triedWrite count position tried [] = .ok (list, triedLast)) :
    Settles stop excuse (writeEach write count position progress []) fun found =>
      relates (position + count) triedLast found.2 := by
  induction count generalizing position tried progress list with
  | zero =>
    cases htried
    exact .ok rfl h
  | succ count ih =>
    rw [writeEach_succ] at htried ⊢
    simp only [bind_eq_ok_iff, pure_eq_ok_iff, Prod.exists, Prod.mk.injEq] at htried
    obtain ⟨written, triedNext, hfirst, triedRest, triedEnd, hrest, rfl, rfl⟩ := htried
    apply (hwrite position (Nat.le_refl _) (by omega) _ _ _ _ h hfirst).bind
    rintro ⟨found, next⟩ hnext
    apply (ih (fun index hfrom hto => hwrite index (Nat.le_of_succ_le hfrom) (by omega)) hnext hrest).bind
    rintro ⟨rest, last⟩ hlast
    rw [Nat.succ_add_eq_add_succ] at hlast
    exact .ok rfl hlast

theorem Follows.writeOutput (hfollows : layout.Follows addresses base) {written : Output}
    (houtput : output < layout.nest.outputCount)
    (hkeeps : Keeps base start (output * layout.nest.stepCount) tried progress)
    (htried : { layout with addresses }.writeOutput bandPairs output tried = .ok (written, triedNext)) :
    Settles (.fault .overflow) (¬ layout.Counts start) (layout.writeOutput bandPairs output progress) fun found =>
      Keeps base start ((output + 1) * layout.nest.stepCount) triedNext found.2 := by
  simp only [Layout.writeOutput, bind_eq_ok_iff, pure_eq_ok_iff, Prod.exists, Prod.mk.injEq] at htried
  obtain ⟨triedSteps, triedMiddle, hsteps, triedResult, _, hresult, rfl, rfl⟩ := htried
  have hsettles := writeEach_of_tried
    (fun step => Keeps base start (output * layout.nest.stepCount + step))
    (fun step _ hstep _ _ _ _ hkeeps htried =>
      hfollows.writeStep houtput (Nat.zero_add layout.nest.stepCount ▸ hstep) hkeeps htried) hkeeps hsteps
  unfold Layout.writeOutput
  apply hsettles.bind
  rintro ⟨steps, middle⟩ hmiddle
  rw [Nat.zero_add] at hmiddle
  obtain ⟨result, next, hresultFound, hnext⟩ := hfollows.writeResult houtput hmiddle hresult
  rw [← Nat.succ_mul] at hnext
  exact .ok (bind_eq_ok_iff.mpr ⟨_, hresultFound, rfl⟩) hnext

theorem announceTotal_eq_ok {totalBytes : Except Fault Nat} {bytes : Nat} (hbytes : totalBytes = .ok bytes)
    (program : List (Instruction ResultCommand)) : ∃ found, announceTotal totalBytes program = .ok found := by
  unfold announceTotal
  split
  · exact ⟨_, rfl⟩
  · exact ⟨_, bind_eq_ok_iff.mpr ⟨bytes, hbytes, rfl⟩⟩

/-- What could be tried can be written, unless the counts are full. -/
theorem Follows.schedule (hfollows : layout.Follows addresses base) (start : Residency) {unknown : Residency}
    (hunknown : unknown.tiles = .both (.both none)) {trial : Schedule × Residency}
    (htrial : { layout with addresses }.schedule unknown = .ok trial) :
    Settles (.fault .overflow) (¬ layout.Counts start) (layout.schedule start) fun found =>
      found.2.hits ≤ start.hits + 2 * (layout.nest.outputCount * layout.nest.stepCount) ∧
        found.2.misses ≤ start.misses + 2 * (layout.nest.outputCount * layout.nest.stepCount) := by
  obtain ⟨trial, triedResidency⟩ := trial
  simp only [Layout.schedule, bind_eq_ok_iff, pure_eq_ok_iff, lift_eq_ok_iff, Prod.exists, Prod.mk.injEq] at htrial
  obtain ⟨bandPairs, hbandPairs, triedOutputs, triedLast, htried, triedResult, hresult, -, -⟩ := htrial
  have hstart : Keeps base start (0 * layout.nest.stepCount) ⟨unknown, ⟨0, 0⟩⟩ ⟨start, ⟨0, 0⟩⟩ :=
    ⟨Residency.covers_unknown hunknown, Nat.le_add_right _ _, Nat.le_add_right _ _, Nat.le_refl _, rfl⟩
  have hsettles := writeEach_of_tried
    (fun output => Keeps base start (output * layout.nest.stepCount))
    (fun output _ houtput _ _ _ _ hkeeps htried =>
      hfollows.writeOutput (Nat.zero_add layout.nest.outputCount ▸ houtput) hkeeps htried) hstart htried
  obtain ⟨bytes, hbytes⟩ := hfollows.resultBytes
  have hbands : (liftM (Word64.mul layout.plan.lhs.tileBands layout.plan.rhs.tileBands) : Except Failure Nat) =
      .ok bandPairs := lift_eq_ok_iff.mpr hbandPairs
  unfold Layout.schedule
  rw [hbands]
  apply hsettles.bind
  rintro ⟨outputs, last⟩ hlast
  rw [Nat.zero_add] at hlast
  obtain ⟨result, hannounced⟩ := announceTotal_eq_ok hbytes (outputs.map (·.result))
  exact .ok (bind_eq_ok_iff.mpr ⟨result, lift_eq_ok_iff.mpr hannounced, rfl⟩) ⟨hlast.hits, hlast.misses⟩

end Trial

/-- What a step needs is in the buffer, where the trial found it, and before the last address. -/
theorem Seated.follows (hseated : layout.Seated) : layout.Follows ⟨0, 0, 0⟩ layout.addresses.operand := by
  constructor
  case aligned => exact hseated.aligned.1
  case address =>
    intro operand output step offset houtput hstep htried
    obtain ⟨bytes, hbytes, hend⟩ := hseated.operand operand
    have hwithin := @neededAddress_le layout.atZero operand hseated.cuts bytes hbytes output step _ houtput hstep htried
    have hzero : layout.atZero.addresses.operand operand = 0 := by cases operand <;> rfl
    rw [hzero, Nat.zero_add] at hwithin
    have hplace := Nat.lt_of_le_of_lt (Nat.add_le_add_left hwithin _) hend
    exact ⟨Nat.ne_of_lt hplace, tileAddress_of_atZero htried (Nat.lt_of_lt_pred hplace)⟩
  case result =>
    intro output command houtput hcommand haligned
    obtain ⟨bytes, hbytes, hend⟩ := hseated.result
    have hwithin := @resultCommand_address_le layout.atZero hseated.cuts bytes hbytes output houtput _ hcommand
    change _ ≤ 0 + bytes at hwithin
    have hbase := hseated.aligned.2
    refine ⟨layout.addresses.result + command.address, resultCommand_of_atZero hcommand (by omega), ?_⟩
    unfold addressAlign at hbase
    unfold elementBytes at haligned ⊢
    omega
  case resultBytes =>
    obtain ⟨bytes, hbytes, -⟩ := hseated.result
    exact ⟨bytes, hbytes⟩

end Layout

end BitSerial
