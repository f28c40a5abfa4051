import Mathlib.Data.List.Pairwise
import BitSerial.Proofs.Regions

/-! # Isolated buffers

The record of everything that a host asked of memory, with the answers, tells which buffers were handed out, which of
them are live and what was last copied to each position of each buffer. Memory agrees with the record because the
allocator only moves forward: every buffer lies below the address that the next one gets, and nothing was ever written
from there on.
-/

namespace BitSerial

/-- One thing that a host asked of memory, with the answer. -/
inductive Dealing where
  | allocated (bytes : Nat) (answer : Except MemoryDefect Buffer)
  | freed (address : Nat)
  | copiedIn (address : Nat) (data : List UInt8) (answer : Except MemoryDefect Unit)
  | copiedOut (address length : Nat) (answer : Except MemoryDefect (List UInt8))

/-- Everything that a host asked of memory, the latest first. -/
abbrev Dealings := List Dealing

namespace Dealings

/-- Every buffer that was ever handed out, the latest first. -/
def handedOut : Dealings → List Buffer
  | [] => []
  | .allocated _ (.ok buffer) :: earlier => buffer :: handedOut earlier
  | _ :: earlier => handedOut earlier

/-- The buffers that were handed out and not released since, the oldest first. -/
def live : Dealings → List Buffer
  | [] => []
  | .allocated _ (.ok buffer) :: earlier => live earlier ++ [buffer]
  | .freed address :: earlier => (live earlier).filter (·.address ≠ address)
  | _ :: earlier => live earlier

/-- The last byte that was copied to a position of the buffer at an address, zero if there is none. -/
def lastCopied (address position : Nat) : Dealings → UInt8
  | [] => 0
  | .copiedIn target data (.ok ()) :: earlier =>
    if target = address then data[position]?.getD (lastCopied address position earlier)
    else lastCopied address position earlier
  | _ :: earlier => lastCopied address position earlier

theorem handedOut_append (later earlier : Dealings) :
    handedOut (later ++ earlier) = handedOut later ++ handedOut earlier := by
  induction later with
  | nil => rfl
  | cons dealing later ih =>
    cases dealing with
    | allocated bytes answer =>
      cases answer with
      | error defect => exact ih
      | ok buffer => exact congrArg (buffer :: ·) ih
    | freed address => exact ih
    | copiedIn address data answer => exact ih
    | copiedOut address length answer => exact ih

/-- What is live was live before, or was handed out since. -/
theorem live_append {buffer : Buffer} {later earlier : Dealings} (h : buffer ∈ live (later ++ earlier)) :
    buffer ∈ handedOut later ∨ buffer ∈ live earlier := by
  induction later with
  | nil => exact .inr h
  | cons dealing later ih =>
    cases dealing with
    | allocated bytes answer =>
      cases answer with
      | error defect => exact ih h
      | ok other =>
        rcases List.mem_append.mp h with hold | hnew
        · exact (ih hold).imp_left (List.mem_cons_of_mem _)
        · exact .inl (List.mem_singleton.mp hnew ▸ List.mem_cons_self)
    | freed address => exact ih (List.mem_filter.mp h).1
    | copiedIn address data answer => exact ih h
    | copiedOut address length answer => exact ih h

theorem handedOut_of_live {buffer : Buffer} {dealings : Dealings} (h : buffer ∈ live dealings) :
    buffer ∈ handedOut dealings := by
  rw [← List.append_nil dealings] at h
  exact (live_append h).resolve_right List.not_mem_nil

end Dealings

/-- The bytes of a buffer. -/
def Buffer.range (buffer : Buffer) : Set Nat := Set.Ico buffer.address (buffer.address + buffer.bytes)

/-- Buffers that start at different addresses and share no byte. -/
def Buffer.Apart (first second : Buffer) : Prop :=
  first.address ≠ second.address ∧ Disjoint first.range second.range

instance : Std.Symm Buffer.Apart := ⟨fun _ _ h => ⟨h.1.symm, h.2.symm⟩⟩

namespace Memory

variable {capacity : Nat} {dealings : Dealings} {memory after : Memory}

/-- A buffer that fits into what is left of the window is handed out. -/
theorem allocate_total {bytes size : Nat} (hsize : roundUp (max bytes 1) addressAlign = .ok size)
    (havailable : size ≤ memory.capacity - memory.used) (hnext : memory.next + size < Word64.size) :
    memory.allocate bytes = .ok (.ok ⟨memory.next, bytes⟩, { memory with
      next := memory.next + size
      regions := memory.regions ++ [⟨memory.next, bytes, 0, 0⟩] }) := by
  rw [roundUp_footprint, Word64.fit_eq_ok_iff] at hsize
  obtain ⟨hfootprint, rfl⟩ := hsize
  rw [allocate_eq, if_neg (Nat.not_le.mpr hfootprint), if_neg (Nat.not_lt.mpr havailable), if_neg (Nat.not_le.mpr hnext)]

/-- Memory of a capacity after everything that a host asked of it. Nothing of that was a fault. -/
inductive Dealt (capacity : Nat) : Dealings → Memory → Prop where
  | made : Dealt capacity [] (.ofCapacity capacity)
  | allocated {dealings : Dealings} {memory after : Memory} {bytes : Nat} {answer : Except MemoryDefect Buffer}
      (h : Dealt capacity dealings memory) (hallocate : memory.allocate bytes = .ok (answer, after)) :
      Dealt capacity (.allocated bytes answer :: dealings) after
  | freed {dealings : Dealings} {memory : Memory} (h : Dealt capacity dealings memory) (address : Nat) :
      Dealt capacity (.freed address :: dealings) (memory.free address)
  | copiedIn {dealings : Dealings} {memory after : Memory} {address : Nat} {data : List UInt8}
      {answer : Except MemoryDefect Unit} (h : Dealt capacity dealings memory)
      (hcopy : memory.copyIn address data = .ok (answer, after)) :
      Dealt capacity (.copiedIn address data answer :: dealings) after
  | copiedOut {dealings : Dealings} {memory after : Memory} {address length : Nat}
      {answer : Except MemoryDefect (List UInt8)} (h : Dealt capacity dealings memory)
      (hcopy : memory.copyOut address length = .ok (answer, after)) :
      Dealt capacity (.copiedOut address length answer :: dealings) after

/-- Memory that agrees with the record of its use. What was handed out is kept apart from what is yet to be. -/
structure Accounted (capacity : Nat) (dealings : Dealings) (memory : Memory) : Prop where
  limit : memory.capacity = capacity
  window : windowBase ≤ memory.next ∧ memory.next ≤ windowBase + capacity
  aligned : memory.next % addressAlign = 0
  placed : ∀ buffer ∈ dealings.handedOut, buffer.address % addressAlign = 0 ∧ windowBase ≤ buffer.address ∧
    buffer.address < memory.next ∧ buffer.address + buffer.bytes ≤ memory.next
  apart : dealings.handedOut.Pairwise Buffer.Apart
  live : memory.buffers = dealings.live
  content : ∀ buffer ∈ dealings.handedOut, ∀ position < buffer.bytes,
    memory.byte (buffer.address + position) = dealings.lastCopied buffer.address position
  blank : ∀ address, memory.next ≤ address → memory.byte address = 0
  uncopied : ∀ address position, memory.next ≤ address → dealings.lastCopied address position = 0

namespace Accounted

theorem made (capacity : Nat) : Accounted capacity [] (.ofCapacity capacity) where
  limit := rfl
  window := ⟨Nat.le_refl _, Nat.le_add_right _ _⟩
  aligned := by
    change windowBase % addressAlign = 0
    decide
  placed := fun _ hbuffer => absurd hbuffer List.not_mem_nil
  apart := .nil
  live := rfl
  content := fun _ hbuffer => absurd hbuffer List.not_mem_nil
  blank := by
    intro address _
    unfold byte ofCapacity
    rw [Std.TreeMap.getElem?_emptyc]
  uncopied := fun _ _ _ => rfl

/-- The next buffer starts past the end of all that came before, where nothing was written yet. -/
theorem allocated (h : Accounted capacity dealings memory) {bytes : Nat} {answer : Except MemoryDefect Buffer}
    (hallocate : memory.allocate bytes = .ok (answer, after)) :
    Accounted capacity (.allocated bytes answer :: dealings) after := by
  cases answer with
  | error defect =>
    cases allocate_eq_refused hallocate
    exact ⟨h.limit, h.window, h.aligned, h.placed, h.apart, h.live, h.content, h.blank, h.uncopied⟩
  | ok buffer =>
    obtain ⟨rfl, size, hbytes, hsize, hrounded, havailable, _, rfl⟩ := allocate_eq_ok hallocate
    have hwindow := h.window
    rw [h.limit, used] at havailable
    constructor
    case limit => exact h.limit
    case window =>
      dsimp only
      omega
    case aligned =>
      dsimp only
      rw [Nat.add_mod, h.aligned, hrounded]
      rfl
    case placed =>
      intro buffer hbuffer
      dsimp only
      rcases List.mem_cons.mp hbuffer with rfl | hold
      · exact ⟨h.aligned, hwindow.1, by dsimp only; omega, by dsimp only; omega⟩
      · obtain ⟨haligned, hbase, haddress, hend⟩ := h.placed buffer hold
        exact ⟨haligned, hbase, by omega, by omega⟩
    case apart =>
      refine .cons ?_ h.apart
      intro buffer hbuffer
      obtain ⟨_, _, haddress, hend⟩ := h.placed buffer hbuffer
      refine ⟨Nat.ne_of_gt haddress, Set.disjoint_left.mpr ?_⟩
      intro byte hnew hold
      have hnew := hnew.1
      have hold := hold.2
      dsimp only at hnew
      omega
    case live =>
      change (memory.regions ++ [_]).map Region.buffer = dealings.live ++ [_]
      rw [List.map_append, ← h.live]
      rfl
    case content =>
      intro buffer hbuffer position hposition
      rcases List.mem_cons.mp hbuffer with rfl | hold
      · exact (h.blank _ (Nat.le_add_right _ _)).trans (h.uncopied _ position (Nat.le_refl _)).symm
      · exact h.content buffer hold position hposition
    case blank =>
      intro address haddress
      exact h.blank address (Nat.le_trans (Nat.le_add_right _ _) haddress)
    case uncopied =>
      intro address position haddress
      exact h.uncopied address position (Nat.le_trans (Nat.le_add_right _ _) haddress)

theorem freed (h : Accounted capacity dealings memory) (address : Nat) :
    Accounted capacity (.freed address :: dealings) (memory.free address) := by
  refine ⟨h.limit, h.window, h.aligned, h.placed, h.apart, ?_, h.content, h.blank, h.uncopied⟩
  change (memory.regions.filter _).map Region.buffer = dealings.live.filter _
  rw [← h.live, buffers, List.filter_map]
  rfl

/-- Buffers at one address are one buffer. -/
theorem eq_of_address (h : Accounted capacity dealings memory) {first second : Buffer}
    (hfirst : first ∈ dealings.handedOut) (hsecond : second ∈ dealings.handedOut)
    (haddress : first.address = second.address) : first = second := by
  by_contra hne
  exact (h.apart.forall hfirst hsecond hne).1 haddress

/-- A copy is in order exactly if it stays within the live buffer at its address. -/
theorem checkCopy_eq_ok_iff (h : Accounted capacity dealings memory) (address length : Nat) :
    memory.checkCopy address length = .ok () ↔
      ∃ buffer ∈ dealings.live, buffer.address = address ∧ length ≤ buffer.bytes := by
  rw [← h.live]
  refine ⟨exists_buffer_of_checkCopy, ?_⟩
  rintro ⟨buffer, hbuffer, rfl, hlength⟩
  apply checkCopy_of_unique hbuffer _ hlength
  intro other hother haddress
  rw [h.live] at hbuffer hother
  exact h.eq_of_address (Dealings.handedOut_of_live hother) (Dealings.handedOut_of_live hbuffer) haddress

/-- A copy into a live buffer reaches the bytes of no other, and nothing that is yet to be handed out. -/
theorem copiedIn (h : Accounted capacity dealings memory) {address : Nat} {data : List UInt8}
    {answer : Except MemoryDefect Unit} (hcopy : memory.copyIn address data = .ok (answer, after)) :
    Accounted capacity (.copiedIn address data answer :: dealings) after := by
  rcases copyIn_eq_ok hcopy with ⟨rfl, hwrite⟩ | ⟨⟨defect, rfl⟩, rfl⟩
  case inr => exact ⟨h.limit, h.window, h.aligned, h.placed, h.apart, h.live, h.content, h.blank, h.uncopied⟩
  have hchecked : memory.checkCopy address data.length = .ok () := by
    cases hcheck : memory.checkCopy address data.length with
    | ok => rfl
    | error defect => simp [copyIn, hcheck] at hcopy
  obtain ⟨target, hlive, rfl, hlength⟩ := (h.checkCopy_eq_ok_iff _ _).mp hchecked
  have htarget := Dealings.handedOut_of_live hlive
  obtain ⟨_, _, hbelow, hend⟩ := h.placed target htarget
  have hkept {address : Nat} (houtside : address < target.address ∨ target.address + data.length ≤ address) :
      after.byte address = memory.byte address := byte_write_of_outside hwrite houtside
  have hbytes := byte_write hwrite
  obtain ⟨_, rfl⟩ := write_eq_ok_iff.mp hwrite
  refine ⟨h.limit, h.window, h.aligned, h.placed, h.apart, h.live, ?content, ?blank, ?uncopied⟩
  case content =>
    intro buffer hbuffer position hposition
    have hbefore := h.content buffer hbuffer position hposition
    by_cases hsame : target.address = buffer.address
    · rw [hbytes, hsame, if_pos (Nat.le_add_right _ _), Nat.add_sub_cancel_left, hbefore]
      exact (if_pos rfl).symm
    · have happart := h.apart.forall htarget hbuffer
        (fun heq => hsame (congrArg Buffer.address heq))
      have hmine : buffer.address + position ∈ buffer.range := ⟨Nat.le_add_right _ _, Nat.add_lt_add_left hposition _⟩
      have hforeign : buffer.address + position ∉ target.range := Set.disjoint_right.mp happart.2 hmine
      rw [hkept ?_, hbefore]
      · exact (if_neg hsame).symm
      · by_contra hinside
        exact hforeign ⟨by omega, by omega⟩
  case blank =>
    intro address haddress
    dsimp only at haddress
    rw [hkept (.inr (by omega))]
    exact h.blank address haddress
  case uncopied =>
    intro address position haddress
    refine Eq.trans ?_ (h.uncopied address position haddress)
    exact if_neg (Nat.ne_of_lt (Nat.lt_of_lt_of_le hbelow haddress))

end Accounted

namespace Dealt

/-- Memory agrees with the record of its use at all times. -/
theorem accounted (h : Dealt capacity dealings memory) : Accounted capacity dealings memory := by
  induction h with
  | made => exact .made capacity
  | allocated _ hallocate ih => exact ih.allocated hallocate
  | freed _ address ih => exact ih.freed address
  | copiedIn _ hcopy ih => exact ih.copiedIn hcopy
  | copiedOut _ hcopy ih =>
    obtain ⟨bytesRead, rfl⟩ := copyOut_frame hcopy
    exact ⟨ih.limit, ih.window, ih.aligned, ih.placed, ih.apart, ih.live, ih.content, ih.blank, ih.uncopied⟩

/-- Nothing is live at the address of a buffer that was released, whatever was handed out since. -/
theorem released {later earlier : Dealings} {buffer : Buffer}
    (h : Dealt capacity (later ++ .freed buffer.address :: earlier) memory) (hbuffer : buffer ∈ earlier.handedOut) :
    ∀ other ∈ memory.buffers, other.address ≠ buffer.address := by
  intro other hother
  rw [h.accounted.live] at hother
  have happart := h.accounted.apart
  rw [Dealings.handedOut_append] at happart
  rcases Dealings.live_append hother with hnew | hold
  · exact ((List.pairwise_append.mp happart).2.2 other hnew buffer hbuffer).1
  · simpa using (List.mem_filter.mp hold).2

/-- A copy that stays within a live buffer stays within the address space. -/
theorem room (h : Dealt capacity dealings memory) (hcapacity : capacity ≤ largestBlock) {address length : Nat}
    (hcheck : memory.checkCopy address length = .ok ()) :
    address + length < Word64.size ∧ length ≤ largestBlock := by
  obtain ⟨buffer, hlive, rfl, hlength⟩ := (h.accounted.checkCopy_eq_ok_iff _ _).mp hcheck
  obtain ⟨_, hbase, _, hend⟩ := h.accounted.placed buffer (Dealings.handedOut_of_live hlive)
  have hwindow := h.accounted.window
  unfold windowBase at hbase hwindow
  unfold largestBlock at hcapacity ⊢
  unfold Word64.size
  omega

/-- A copy into memory succeeds exactly if it stays within a live buffer, and changes nothing if it does not. -/
theorem copyIn_iff (h : Dealt capacity dealings memory) (hcapacity : capacity ≤ largestBlock) (address : Nat)
    (data : List UInt8) : ∃ answer after, memory.copyIn address data = .ok (answer, after) ∧
      (answer = .ok () ↔ ∃ buffer ∈ dealings.live, buffer.address = address ∧ data.length ≤ buffer.bytes) ∧
      (answer ≠ .ok () → after = memory) := by
  have hiff := h.accounted.checkCopy_eq_ok_iff address data.length
  cases hcheck : memory.checkCopy address data.length with
  | error defect =>
    refine ⟨.error defect, memory, ?_, ?_, fun _ => rfl⟩
    · rw [copyIn, hcheck]
    · rw [← hiff, hcheck]
  | ok =>
    obtain ⟨after, _, hcopy⟩ := copyIn_total hcheck (h.room hcapacity hcheck).1
    refine ⟨.ok (), after, hcopy, ?_, fun hrefused => absurd rfl hrefused⟩
    rw [← hiff, hcheck]

/-- A copy out of memory succeeds exactly if it stays within a live buffer, and changes nothing if it does not. -/
theorem copyOut_iff (h : Dealt capacity dealings memory) (hcapacity : capacity ≤ largestBlock) (address : Nat)
    {length : Nat} (hlength : length ≤ largestBlock) :
    ∃ answer after, memory.copyOut address length = .ok (answer, after) ∧
      ((∃ data, answer = .ok data) ↔ ∃ buffer ∈ dealings.live, buffer.address = address ∧ length ≤ buffer.bytes) ∧
      ((∀ data, answer ≠ .ok data) → after = memory) := by
  have hiff := h.accounted.checkCopy_eq_ok_iff address length
  cases hcheck : memory.checkCopy address length with
  | error defect =>
    refine ⟨.error defect, memory, ?_, ?_, fun _ => rfl⟩
    · have hreserve : reserve length = .ok () := if_pos hlength
      rw [copyOut, hreserve, hcheck]
      rfl
    · rw [← hiff, hcheck]
      constructor
      · rintro ⟨data, hdata⟩
        cases hdata
      · intro hlive
        cases hlive
  | ok =>
    obtain ⟨after, hcopy⟩ := copyOut_total hcheck (h.room hcapacity hcheck).1 hlength
    refine ⟨_, after, hcopy, ?_, fun hrefused => absurd rfl (hrefused _)⟩
    rw [← hiff, hcheck]
    exact ⟨fun _ => rfl, fun _ => ⟨_, rfl⟩⟩

/-- What is copied out of a live buffer is what was last copied into it, position by position. -/
theorem copyOut_live (h : Dealt capacity dealings memory) (hcapacity : capacity ≤ largestBlock) {buffer : Buffer}
    (hlive : buffer ∈ dealings.live) {length : Nat} (hlength : length ≤ buffer.bytes) :
    ∃ after, memory.copyOut buffer.address length =
      .ok (.ok ((List.range length).map fun position => dealings.lastCopied buffer.address position), after) := by
  have hcheck := (h.accounted.checkCopy_eq_ok_iff _ _).mpr ⟨buffer, hlive, rfl, hlength⟩
  obtain ⟨hroom, hblock⟩ := h.room hcapacity hcheck
  obtain ⟨after, hcopy⟩ := copyOut_total hcheck hroom hblock
  refine ⟨after, ?_⟩
  rw [hcopy, bytesFrom, List.map_congr_left]
  intro position hposition
  have hposition := List.mem_range.mp hposition
  exact h.accounted.content buffer (Dealings.handedOut_of_live hlive) position (Nat.lt_of_lt_of_le hposition hlength)

end Dealt

/-- Memory whose buffers have nothing to do with each other, as its host sees them. -/
structure Isolated (capacity : Nat) (dealings : Dealings) (memory : Memory) : Prop where
  /-- Every buffer is aligned and lies in the window. -/
  placed : ∀ buffer ∈ dealings.handedOut, buffer.address % addressAlign = 0 ∧ windowBase ≤ buffer.address ∧
    buffer.address < windowBase + capacity ∧ buffer.address + buffer.bytes ≤ windowBase + capacity
  /-- No address is handed out twice, and no byte. -/
  apart : dealings.handedOut.Pairwise Buffer.Apart
  live : memory.buffers = dealings.live
  /-- A buffer that was released is unknown ever after. -/
  released : ∀ (later earlier : Dealings) (buffer : Buffer), dealings = later ++ .freed buffer.address :: earlier →
    buffer ∈ earlier.handedOut →
      (∀ data, memory.copyIn buffer.address data = .ok (.error (.unknownBuffer buffer.address), memory)) ∧
      ∀ length ≤ largestBlock,
        memory.copyOut buffer.address length = .ok (.error (.unknownBuffer buffer.address), memory)
  copyIn : ∀ address data, ∃ answer after, memory.copyIn address data = .ok (answer, after) ∧
    (answer = .ok () ↔ ∃ buffer ∈ dealings.live, buffer.address = address ∧ data.length ≤ buffer.bytes) ∧
    (answer ≠ .ok () → after = memory)
  copyOut : ∀ address, ∀ length ≤ largestBlock, ∃ answer after, memory.copyOut address length = .ok (answer, after) ∧
    ((∃ data, answer = .ok data) ↔ ∃ buffer ∈ dealings.live, buffer.address = address ∧ length ≤ buffer.bytes) ∧
    ((∀ data, answer ≠ .ok data) → after = memory)
  /-- A live buffer holds what was last copied into it, and zeros where nothing was. -/
  content : ∀ buffer ∈ dealings.live, ∀ length ≤ buffer.bytes, ∃ after, memory.copyOut buffer.address length =
    .ok (.ok ((List.range length).map fun position => dealings.lastCopied buffer.address position), after)

/-- Buffers are isolated from each other, whatever their host does with them. -/
theorem isolated_of_dealt (hcapacity : capacity ≤ largestBlock) (h : Dealt capacity dealings memory) :
    Isolated capacity dealings memory where
  placed := by
    intro buffer hbuffer
    obtain ⟨haligned, hbase, hbelow, hend⟩ := h.accounted.placed buffer hbuffer
    have hwindow := h.accounted.window.2
    exact ⟨haligned, hbase, Nat.lt_of_lt_of_le hbelow hwindow, Nat.le_trans hend hwindow⟩
  apart := h.accounted.apart
  live := h.accounted.live
  released := by
    rintro later earlier buffer rfl hbuffer
    have hnone : memory.regionFrom? buffer.address = none := by
      apply List.find?_eq_none.mpr
      intro region hregion
      have hother : region.address ≠ buffer.address := h.released hbuffer region.buffer (List.mem_map_of_mem hregion)
      simpa using hother
    have hcheck (length : Nat) :
        memory.checkCopy buffer.address length = .error (.unknownBuffer buffer.address) := by
      rw [checkCopy, hnone]
    refine ⟨?_, ?_⟩
    · intro data
      rw [Memory.copyIn, hcheck]
    · intro length hlength
      have hreserve : reserve length = .ok () := if_pos hlength
      rw [Memory.copyOut, hreserve, hcheck]
      rfl
  copyIn := h.copyIn_iff hcapacity
  copyOut := fun address _ hlength => h.copyOut_iff hcapacity address hlength
  content := fun _ hlive _ hlength => h.copyOut_live hcapacity hlive hlength

/-- Two buffers, the first of which was released after something was copied into the second. -/
theorem isolated_of_dealt_small : ∃ dealings memory, 256 ≤ largestBlock ∧ Dealt 256 dealings memory ∧
    dealings.handedOut = [⟨windowBase + 64, 3⟩, ⟨windowBase, 10⟩] ∧ dealings.live = [⟨windowBase + 64, 3⟩] ∧
    dealings.lastCopied (windowBase + 64) 1 = 7 ∧ Isolated 256 dealings memory := by
  have hsmall : 256 ≤ largestBlock := by decide
  let first : Region := ⟨windowBase, 10, 0, 0⟩
  let second : Region := ⟨windowBase + 64, 3, 0, 0⟩
  let one : Memory := { ofCapacity 256 with next := windowBase + 64, regions := [first] }
  let two : Memory := { one with next := windowBase + 128, regions := [first, second] }
  have hone : (ofCapacity 256).allocate 10 = .ok (.ok first.buffer, one) :=
    allocate_total (by decide : roundUp (max 10 1) addressAlign = .ok 64) (by decide) (by decide)
  have htwo : one.allocate 3 = .ok (.ok second.buffer, two) :=
    allocate_total (by decide : roundUp (max 3 1) addressAlign = .ok 64) (by decide) (by decide)
  have hcheck : two.checkCopy second.address 2 = .ok () := by decide
  have hroom : windowBase + 64 + 2 < Word64.size := by decide
  obtain ⟨written, _, hcopy⟩ := @copyIn_total two second.address [5, 7] hcheck hroom
  have hdealt := (((Dealt.made.allocated hone).allocated htwo).copiedIn hcopy).freed first.address
  exact ⟨_, _, hsmall, hdealt, rfl, by decide, rfl, isolated_of_dealt hsmall hdealt⟩

end Memory

end BitSerial
