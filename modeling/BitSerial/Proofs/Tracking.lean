import BitSerial.Residency
import BitSerial.Proofs.Outcome

/-! # What the tracker knows

The tracker as a table of two operands and two slots. Asking for a tile changes the entry of its operand and slot to
that tile and no other entry, and the answer is whether the entry said so before.
-/

namespace BitSerial

namespace PerOperand

variable {α : Type}

theorem get_set (family : PerOperand α) (value : α) (operand other : Operand) :
    (family.set value operand).get other = if other = operand then value else family.get other := by
  cases operand <;> cases other <;> rfl

@[simp] theorem get_both (value : α) (operand : Operand) : (PerOperand.both value).get operand = value := by
  cases operand <;> rfl

end PerOperand

namespace SlotPair

variable {α : Type}

/-- The value of the first slot, or that of the second for any other number. -/
def value (pair : SlotPair α) (slot : Nat) : α := if slot = 0 then pair.first else pair.second

theorem get_eq_ok {pair : SlotPair α} {slot : Nat} (hslot : slot < operandSlots) :
    pair.get slot = .ok (pair.value slot) := by
  match slot, hslot with
  | 0, _ => rfl
  | 1, _ => rfl

theorem set_eq_ok_iff {pair found : SlotPair α} {entry : α} {slot : Nat} (hslot : slot < operandSlots) :
    pair.set entry slot = .ok found ↔ found = if slot = 0 then { pair with first := entry } else { pair with second := entry } := by
  match slot, hslot with
  | 0, _ => simp [set, eq_comm]
  | 1, _ => simp [set, eq_comm]

end SlotPair

namespace TileIdentity

/-- An address identifies itself, but for the largest one. -/
theorem eq_some_of_ofAddress {address found : Nat} (h : ofAddress address = some found) : found = address := by
  unfold ofAddress at h
  split at h
  · cases h
  · exact (Option.some.inj h).symm

theorem ofAddress_of_ne {address : Nat} (h : address ≠ Word64.size - 1) : ofAddress address = some address :=
  if_neg h

end TileIdentity

namespace Residency

/-- The tile known to be in a slot of an operand. -/
def known (residency : Residency) (operand : Operand) (slot : Nat) : TileIdentity :=
  (residency.tiles.get operand).value slot

/-- What asking for a tile does: the answer and the table after it. -/
structure Asked (residency : Residency) (operand : Operand) (slot : Nat) (tile : TileIdentity) (hit : Bool)
    (after : Residency) : Prop where
  hit_iff : hit = true ↔ tile ≠ none ∧ residency.known operand slot = tile
  known : after.known operand slot = tile
  others : ∀ other otherSlot, otherSlot < operandSlots → other ≠ operand ∨ otherSlot ≠ slot →
    after.known other otherSlot = residency.known other otherSlot
  hits : after.hits = residency.hits + if hit then 1 else 0
  misses : after.misses = residency.misses + if hit then 0 else 1

variable {residency after : Residency} {operand : Operand} {slot : Nat} {tile : TileIdentity} {hit : Bool}

theorem isResident_eq_ok_iff (hslot : slot < operandSlots) :
    residency.isResident operand slot tile = .ok hit ↔
      (hit = true ↔ tile ≠ none ∧ residency.known operand slot = tile) := by
  cases tile with
  | none => cases hit <;> simp [isResident]
  | some address =>
    simp only [isResident, resident, SlotPair.get_eq_ok hslot, bind_eq_ok_iff, pure_eq_ok_iff, Except.ok.injEq]
    cases hit <;> simp [known]

theorem access_asked (hslot : slot < operandSlots) (h : residency.access operand slot tile = .ok (hit, after)) :
    residency.Asked operand slot tile hit after := by
  unfold access at h
  simp only [bind_eq_ok_iff] at h
  obtain ⟨answer, hanswer, h⟩ := h
  rw [isResident_eq_ok_iff hslot] at hanswer
  split at h
  next htrue =>
    simp only [bind_eq_ok_iff, Word64.add_eq_ok_iff, pure_eq_ok_iff, Prod.mk.injEq] at h
    obtain ⟨_, ⟨_, rfl⟩, rfl, rfl⟩ := h
    exact ⟨htrue ▸ hanswer, (hanswer.mp htrue).2, fun _ _ _ _ => rfl, rfl, rfl⟩
  next hfalse =>
    simp only [bind_eq_ok_iff, Word64.add_eq_ok_iff, SlotPair.set_eq_ok_iff hslot, pure_eq_ok_iff,
      Prod.mk.injEq] at h
    obtain ⟨_, ⟨_, rfl⟩, _, rfl, rfl, rfl⟩ := h
    rw [Bool.not_eq_true] at hfalse
    refine ⟨hfalse ▸ hanswer, ?_, ?_, rfl, rfl⟩
    · simp only [Residency.known, PerOperand.get_set_self, SlotPair.value]
      split <;> rfl
    · intro other otherSlot hother hne
      simp only [Residency.known, PerOperand.get_set, SlotPair.value]
      unfold operandSlots at hslot hother
      by_cases hoperand : other = operand
      · subst hoperand
        have hne : otherSlot ≠ slot := hne.resolve_left (not_not_intro rfl)
        rw [if_pos rfl]
        split <;> split <;> first | rfl | omega
      · rw [if_neg hoperand]

/-- One of the counts is at its end. -/
def Full (residency : Residency) : Prop :=
  Word64.size ≤ residency.hits + 1 ∨ Word64.size ≤ residency.misses + 1

/-- Asking fails for nothing but the counts. -/
theorem access_settles (hslot : slot < operandSlots) (operand : Operand) (tile : TileIdentity) :
    Settles .overflow residency.Full (residency.access operand slot tile) fun asked =>
      residency.Asked operand slot tile asked.1 asked.2 := by
  have hanswer : residency.isResident operand slot tile =
      .ok (decide (tile ≠ none ∧ residency.known operand slot = tile)) :=
    (isResident_eq_ok_iff hslot).mpr decide_eq_true_iff
  have hsettles : Settles .overflow residency.Full (residency.access operand slot tile) fun _ => True := by
    unfold access
    rw [hanswer]
    cases decide (tile ≠ none ∧ residency.known operand slot = tile) with
    | true =>
      apply ((Word64.add_settles residency.hits 1).imp .inl fun _ _ h => h).bind
      intro _ _
      exact .ok rfl trivial
    | false =>
      apply ((Word64.add_settles residency.misses 1).imp .inr fun _ _ h => h).bind
      intro _ _
      exact .ok (bind_eq_ok_iff.mpr ⟨_, (SlotPair.set_eq_ok_iff hslot).mpr rfl, rfl⟩) trivial
  exact hsettles.imp id fun _ haccess _ => access_asked hslot haccess

@[simp] theorem known_invalidate (operand other : Operand) (slot : Nat) :
    (residency.invalidate operand).known other slot = if other = operand then none else residency.known other slot := by
  simp only [known, invalidate, PerOperand.get_set]
  split
  · simp [SlotPair.value, SlotPair.both]
  · rfl

theorem known_invalidateAll (operand : Operand) (slot : Nat) : residency.invalidateAll.known operand slot = none := by
  cases operand <;> simp [invalidateAll]

theorem known_fresh (operand : Operand) (slot : Nat) : fresh.known operand slot = none := by
  simp [known, fresh, SlotPair.value, SlotPair.both]

end Residency

end BitSerial
