import Mathlib.Tactic.ByContra
import BitSerial.Proofs.Tracking

/-! # What the tracker was asked

A host asks for tiles, asks about slots and tells the tracker to forget. All that the tracker knows of a slot is the
tile that was last asked for there, if the operand was not forgotten since, and all that it counts are its answers to
those who asked for tiles. So every answer can be told from the questions before it.
-/

namespace BitSerial

/-- Something that a host can ask of a tracker. Tiles are named by their addresses. -/
inductive Inquiry where
  | access (operand : Operand) (slot : Fin operandSlots) (address : Nat)
  | isResident (operand : Operand) (slot : Fin operandSlots) (address : Nat)
  | resident (operand : Operand) (slot : Fin operandSlots)
  | invalidate (operand : Operand)
  | invalidateAll
  deriving DecidableEq, Repr

namespace Inquiry

/-- Whether a host asks for a tile, to have it in a slot from then on. -/
def isAccess : Inquiry → Bool
  | .access .. => true
  | _ => false

/-- Whether a question can change what is known of a slot. -/
def Touches (operand : Operand) (slot : Fin operandSlots) : Inquiry → Prop
  | .access other otherSlot _ => other = operand ∧ otherSlot = slot
  | .invalidate other => other = operand
  | .invalidateAll => True
  | .isResident .. | .resident .. => False

end Inquiry

/-- What a tracker answers. -/
inductive Reply where
  /-- Whether a tile was in a slot. -/
  | found (hit : Bool)
  /-- The address of the tile in a slot. -/
  | tile (address : Nat)
  /-- There is nothing to say. -/
  | done
  deriving DecidableEq, Repr

/-- Questions with their answers, the latest first. -/
abbrev Trace := List (Inquiry × Reply)

namespace Residency

/-- Puts a question to the tracker. -/
def answer (residency : Residency) : Inquiry → Except Fault (Reply × Residency)
  | .access operand slot address => do
    let (hit, after) ← residency.access operand slot (.ofAddress address)
    return (.found hit, after)
  | .isResident operand slot address => do
    let hit ← residency.isResident operand slot (.ofAddress address)
    return (.found hit, residency)
  | .resident operand slot => do
    let tile ← residency.resident operand slot
    return (.tile tile.address, residency)
  | .invalidate operand => .ok (.done, residency.invalidate operand)
  | .invalidateAll => .ok (.done, residency.invalidateAll)

/-- Puts questions to the tracker, one after the other, and writes down its answers. -/
def answerAll (start : Trace × Residency) (inquiries : List Inquiry) : Except Fault (Trace × Residency) :=
  inquiries.foldlM (fun (trace, residency) inquiry => do
    let (reply, after) ← residency.answer inquiry
    return ((inquiry, reply) :: trace, after)) start

end Residency

namespace Trace

/-- A tile was the last one that was asked for in a slot, and nothing was forgotten of its operand since. -/
def LastAsked (trace : Trace) (operand : Operand) (slot : Fin operandSlots) (address : Nat) : Prop :=
  ∃ since reply before, trace = since ++ (.access operand slot address, reply) :: before ∧
    ∀ entry ∈ since, ¬ entry.1.Touches operand slot

/-- The answer that a question has after what was asked before. The largest address names no tile. -/
def Answers (earlier : Trace) : Inquiry → Reply → Prop
  | .access operand slot address, .found hit =>
    hit = true ↔ address ≠ Word64.size - 1 ∧ earlier.LastAsked operand slot address
  | .isResident operand slot address, .found hit =>
    hit = true ↔ address ≠ Word64.size - 1 ∧ earlier.LastAsked operand slot address
  | .resident operand slot, .tile address =>
    earlier.LastAsked operand slot address ∨
      address = Word64.size - 1 ∧ ∀ other, ¬ earlier.LastAsked operand slot other
  | .invalidate _, .done | .invalidateAll, .done => True
  | _, _ => False

/-- Every question was answered as the ones before it say. -/
def Truthful : Trace → Prop
  | [] => True
  | (inquiry, reply) :: earlier => Answers earlier inquiry reply ∧ Truthful earlier

/-- The number of times that a host asked for a tile and was given an answer. -/
def accessed (trace : Trace) (hit : Bool) : Nat :=
  trace.countP fun entry => entry.1.isAccess && entry.2 == .found hit

/-- The tile that is known to be in a slot after what was asked. -/
def remembered (operand : Operand) (slot : Fin operandSlots) : Trace → TileIdentity
  | [] => none
  | (.access other otherSlot address, _) :: earlier =>
    if other = operand ∧ otherSlot = slot then .ofAddress address else remembered operand slot earlier
  | (.invalidate other, _) :: earlier => if other = operand then none else remembered operand slot earlier
  | (.invalidateAll, _) :: _ => none
  | (.isResident .., _) :: earlier | (.resident .., _) :: earlier => remembered operand slot earlier

variable {trace earlier : Trace} {inquiry : Inquiry} {reply : Reply} {operand : Operand} {slot : Fin operandSlots}
  {address : Nat}

/-- A question changes which tile was asked for last by asking for one, or by making the tracker forget. -/
theorem lastAsked_cons_iff : LastAsked ((inquiry, reply) :: earlier) operand slot address ↔
    inquiry = .access operand slot address ∨
      ¬ inquiry.Touches operand slot ∧ earlier.LastAsked operand slot address := by
  constructor
  · rintro ⟨since, other, before, hsplit, huntouched⟩
    cases since with
    | nil =>
      obtain ⟨hentry, -⟩ := List.cons.inj hsplit
      exact .inl (Prod.mk.inj hentry).1
    | cons entry since =>
      obtain ⟨rfl, rfl⟩ := List.cons.inj hsplit
      refine .inr ⟨huntouched _ List.mem_cons_self, since, other, before, rfl, ?_⟩
      exact fun entry hentry => huntouched entry (List.mem_cons_of_mem _ hentry)
  · rintro (rfl | ⟨huntouched, since, other, before, rfl, hsince⟩)
    · exact ⟨[], reply, earlier, rfl, fun _ hentry => absurd hentry List.not_mem_nil⟩
    · refine ⟨(inquiry, reply) :: since, other, before, rfl, ?_⟩
      intro entry hentry
      rcases List.mem_cons.mp hentry with rfl | hold
      · exact huntouched
      · exact hsince entry hold

theorem not_lastAsked_nil : ¬ LastAsked [] operand slot address := by
  rintro ⟨since, reply, before, hsplit, -⟩
  exact List.append_ne_nil_of_right_ne_nil since (List.cons_ne_nil _ _) hsplit.symm

theorem remembered_of_untouched (h : ¬ inquiry.Touches operand slot) :
    remembered operand slot ((inquiry, reply) :: earlier) = remembered operand slot earlier := by
  cases inquiry with
  | access other otherSlot address => exact if_neg h
  | isResident other otherSlot address => rfl
  | resident other otherSlot => rfl
  | invalidate other => exact if_neg h
  | invalidateAll => exact absurd trivial h

/-- The tile that was asked for last is remembered. -/
theorem remembered_of_lastAsked (h : trace.LastAsked operand slot address) :
    trace.remembered operand slot = .ofAddress address := by
  induction trace with
  | nil => exact absurd h not_lastAsked_nil
  | cons entry earlier ih =>
    obtain ⟨inquiry, reply⟩ := entry
    rcases lastAsked_cons_iff.mp h with rfl | ⟨huntouched, hearlier⟩
    · exact if_pos ⟨rfl, rfl⟩
    · rw [remembered_of_untouched huntouched, ih hearlier]

/-- Where no tile was asked for since the last time that the tracker had to forget, none is remembered. -/
theorem remembered_of_forgotten (h : ∀ address, ¬ trace.LastAsked operand slot address) :
    trace.remembered operand slot = none := by
  induction trace with
  | nil => rfl
  | cons entry earlier ih =>
    obtain ⟨inquiry, reply⟩ := entry
    by_cases htouched : inquiry.Touches operand slot
    · cases inquiry with
      | access other otherSlot address =>
        obtain ⟨rfl, rfl⟩ := htouched
        exact absurd (lastAsked_cons_iff.mpr (.inl rfl)) (h address)
      | isResident other otherSlot address => exact htouched.elim
      | resident other otherSlot => exact htouched.elim
      | invalidate other => exact if_pos htouched
      | invalidateAll => rfl
    · rw [remembered_of_untouched htouched]
      exact ih fun address hearlier => h address (lastAsked_cons_iff.mpr (.inr ⟨htouched, hearlier⟩))

/-- A tile is remembered exactly if it was the last one asked for, and can be told from the others. -/
theorem remembered_eq_iff : TileIdentity.ofAddress address ≠ none ∧
    trace.remembered operand slot = .ofAddress address ↔
      address ≠ Word64.size - 1 ∧ trace.LastAsked operand slot address := by
  constructor
  · rintro ⟨hsome, hremembered⟩
    have haddress : address ≠ Word64.size - 1 := fun hlargest => hsome (if_pos hlargest)
    rw [TileIdentity.ofAddress_of_ne haddress] at hremembered
    refine ⟨haddress, ?_⟩
    by_contra hnot
    have hforgotten : trace.remembered operand slot = none := by
      apply remembered_of_forgotten
      intro other hother
      rw [remembered_of_lastAsked hother] at hremembered
      exact hnot (TileIdentity.eq_some_of_ofAddress hremembered ▸ hother)
    rw [hforgotten] at hremembered
    cases hremembered
  · rintro ⟨haddress, hlast⟩
    refine ⟨?_, remembered_of_lastAsked hlast⟩
    rw [TileIdentity.ofAddress_of_ne haddress]
    exact Option.some_ne_none address

/-- The address of the tile that is remembered is that of the last one asked for. -/
theorem remembered_address : trace.LastAsked operand slot (trace.remembered operand slot).address ∨
    (trace.remembered operand slot).address = Word64.size - 1 ∧ ∀ other, ¬ trace.LastAsked operand slot other := by
  by_cases hasked : ∃ address, trace.LastAsked operand slot address
  · obtain ⟨address, hlast⟩ := hasked
    have haddress : (TileIdentity.ofAddress address).address = address := by
      unfold TileIdentity.ofAddress
      split
      next hlargest => exact hlargest.symm
      next => rfl
    rw [remembered_of_lastAsked hlast, haddress]
    exact .inl hlast
  · have hnone (address : Nat) : ¬ trace.LastAsked operand slot address := fun hlast => hasked ⟨address, hlast⟩
    rw [remembered_of_forgotten hnone]
    exact .inr ⟨rfl, hnone⟩

end Trace

/-- A tracker that is where its answers have left it. -/
structure Trace.Recalled (trace : Trace) (residency : Residency) : Prop where
  known : ∀ operand (slot : Fin operandSlots), residency.known operand slot = trace.remembered operand slot
  truthful : trace.Truthful
  hits : residency.hits = trace.accessed true
  misses : residency.misses = trace.accessed false
  accesses : residency.hits + residency.misses = trace.countP (·.1.isAccess)

namespace Trace.Recalled

variable {trace : Trace} {residency after : Residency}

theorem fresh : Trace.Recalled [] .fresh where
  known := fun operand slot => Residency.known_fresh operand slot
  truthful := trivial
  hits := rfl
  misses := rfl
  accesses := rfl

/-- Asking for a tile changes what is known of its slot and one of the counts. -/
theorem access (h : trace.Recalled residency) {operand : Operand} {slot : Fin operandSlots} {address : Nat} {hit : Bool}
    (hasked : residency.Asked operand slot (.ofAddress address) hit after) :
    Trace.Recalled ((.access operand slot address, .found hit) :: trace) after := by
  constructor
  case known =>
    intro other otherSlot
    by_cases hsame : operand = other ∧ slot = otherSlot
    · obtain ⟨rfl, rfl⟩ := hsame
      rw [hasked.known]
      exact (if_pos ⟨rfl, rfl⟩).symm
    · have hother : other ≠ operand ∨ otherSlot.val ≠ slot.val := by
        rcases not_and_or.mp hsame with hoperand | hslot
        · exact .inl (Ne.symm hoperand)
        · exact .inr fun hval => hslot (Fin.ext hval.symm)
      rw [hasked.others other otherSlot otherSlot.isLt hother, h.known]
      exact (if_neg hsame).symm
  case truthful =>
    refine ⟨?_, h.truthful⟩
    change hit = true ↔ _
    rw [hasked.hit_iff, h.known, Trace.remembered_eq_iff]
  case hits =>
    rw [hasked.hits, h.hits]
    cases hit <;> simp [Trace.accessed, Inquiry.isAccess]
  case misses =>
    rw [hasked.misses, h.misses]
    cases hit <;> simp [Trace.accessed, Inquiry.isAccess]
  case accesses =>
    have haccesses := h.accesses
    rw [hasked.hits, hasked.misses, List.countP_cons_of_pos rfl, ← haccesses]
    cases hit with
    | true => exact Nat.add_right_comm _ _ _
    | false => rfl

/-- A question that asks for no tile counts for nothing. -/
theorem ask (h : trace.Recalled residency) {inquiry : Inquiry} {reply : Reply} (hinquiry : inquiry.isAccess = false)
    (hknown : ∀ operand (slot : Fin operandSlots),
      after.known operand slot = Trace.remembered operand slot ((inquiry, reply) :: trace))
    (hcounts : after.hits = residency.hits ∧ after.misses = residency.misses) (hreply : trace.Answers inquiry reply) :
    Trace.Recalled ((inquiry, reply) :: trace) after := by
  have hskip (hit : Bool) : Trace.accessed ((inquiry, reply) :: trace) hit = trace.accessed hit := by
    apply List.countP_cons_of_neg
    simp [hinquiry]
  refine ⟨hknown, ⟨hreply, h.truthful⟩, ?_, ?_, ?_⟩
  · rw [hcounts.1, hskip, h.hits]
  · rw [hcounts.2, hskip, h.misses]
  · rw [hcounts.1, hcounts.2, h.accesses, List.countP_cons_of_neg]
    simp [hinquiry]

/-- Every question has its answer, unless there is no room to count it. -/
theorem answer (h : trace.Recalled residency) (inquiry : Inquiry) :
    Settles .overflow (inquiry.isAccess = true ∧ residency.Full) (residency.answer inquiry) fun answered =>
      Trace.Recalled ((inquiry, answered.1) :: trace) answered.2 := by
  cases inquiry with
  | access operand slot address =>
    apply ((Residency.access_settles slot.isLt operand (.ofAddress address)).imp (And.intro rfl) fun _ _ h => h).bind
    rintro ⟨hit, after⟩ hasked
    exact .ok rfl (h.access hasked)
  | isResident operand slot address =>
    have hresident : residency.isResident operand slot (.ofAddress address) =
        .ok (decide (TileIdentity.ofAddress address ≠ none ∧
          trace.remembered operand slot = .ofAddress address)) := by
      rw [Residency.isResident_eq_ok_iff slot.isLt, h.known]
      exact decide_eq_true_iff
    exact .ok (bind_of_ok hresident)
      (h.ask rfl h.known ⟨rfl, rfl⟩ (decide_eq_true_iff.trans Trace.remembered_eq_iff))
  | resident operand slot =>
    have hresident : residency.resident operand slot = .ok (trace.remembered operand slot) := by
      rw [← h.known]
      exact SlotPair.get_eq_ok slot.isLt
    exact .ok (bind_of_ok hresident) (h.ask rfl h.known ⟨rfl, rfl⟩ Trace.remembered_address)
  | invalidate operand =>
    refine .ok rfl (h.ask rfl (fun other slot => ?_) ⟨rfl, rfl⟩ trivial)
    rw [Residency.known_invalidate, h.known]
    simp only [Trace.remembered, eq_comm]
  | invalidateAll =>
    exact .ok rfl (h.ask rfl (fun other slot => Residency.known_invalidateAll other slot) ⟨rfl, rfl⟩ trivial)

/-- Any number of questions have their answers, unless so many of them ask for tiles that there is no room to count. -/
theorem answerAll (h : trace.Recalled residency) (inquiries : List Inquiry) :
    Settles .overflow (Word64.size ≤ trace.countP (·.1.isAccess) + inquiries.countP Inquiry.isAccess)
      (Residency.answerAll (trace, residency) inquiries) fun found =>
        found.1.Recalled found.2 ∧ found.1.map Prod.fst = inquiries.reverse ++ trace.map Prod.fst := by
  induction inquiries generalizing trace residency with
  | nil => exact .ok rfl ⟨h, rfl⟩
  | cons inquiry rest ih =>
    have hlast (hexcuse : inquiry.isAccess = true ∧ residency.Full) :
        Word64.size ≤ trace.countP (·.1.isAccess) + (inquiry :: rest).countP Inquiry.isAccess := by
      rw [List.countP_cons_of_pos hexcuse.1, ← h.accesses]
      rcases hexcuse.2 with hfull | hfull <;> omega
    unfold Residency.answerAll
    rw [List.foldlM_cons]
    refine Settles.bind (?_ : Settles Fault.overflow _ _ fun found : Trace × Residency =>
      ∃ reply, found.1 = (inquiry, reply) :: trace ∧ found.1.Recalled found.2) ?_
    · apply ((h.answer inquiry).imp hlast fun _ _ h => h).bind
      rintro ⟨reply, after⟩ hafter
      exact .ok rfl ⟨reply, rfl, hafter⟩
    · rintro ⟨_, after⟩ ⟨reply, rfl, hafter⟩
      refine (ih hafter).imp ?_ ?_
      · intro hexcuse
        simp only [List.countP_cons] at hexcuse ⊢
        omega
      · rintro found - ⟨hfound, hasked⟩
        refine ⟨hfound, ?_⟩
        rw [hasked, List.reverse_cons, List.append_assoc]
        rfl

end Trace.Recalled

/-- Whatever a host asks of a new tracker, every answer is the one that the questions before it ask for. A tile is found
exactly if it was the last one asked for in its slot since the tracker had to forget its operand; and what is counted
are the answers to those who asked for tiles. Only if these are too many to be counted is there no answer. -/
theorem tracker_recalls (inquiries : List Inquiry) :
    Settles .overflow (Word64.size ≤ inquiries.countP Inquiry.isAccess)
      (Residency.answerAll ([], .fresh) inquiries) fun (trace, residency) =>
        trace.map Prod.fst = inquiries.reverse ∧ Trace.Truthful trace ∧
          residency.hits = Trace.accessed trace true ∧ residency.misses = Trace.accessed trace false := by
  refine (Trace.Recalled.fresh.answerAll inquiries).imp ?_ ?_
  · intro hexcuse
    rwa [List.countP_nil, Nat.zero_add] at hexcuse
  · rintro ⟨trace, residency⟩ - ⟨hrecalled, hasked⟩
    exact ⟨hasked.trans (List.append_nil _), hrecalled.truthful, hrecalled.hits, hrecalled.misses⟩

/-- The largest address is recorded like any other, in the place of the tile before, and is not found again. -/
example : ∀ slot : Fin operandSlots, ((Residency.answerAll ([], .fresh)
    [.access .lhs slot 64, .access .lhs slot 64, .access .lhs slot 0xffffffffffffffff,
      .access .lhs slot 0xffffffffffffffff, .access .lhs slot 64]).toOption.map fun (trace, _) =>
        trace.map Prod.snd) =
    some [.found false, .found false, .found false, .found true, .found false] := by
  decide

end BitSerial
