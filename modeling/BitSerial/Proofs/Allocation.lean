import BitSerial.Proofs.Isolation
import BitSerial.Proofs.Padding

/-! # Room for buffers

The allocator rounds a request up before it looks at the room in the window, and it moves forward in the same words. By
exact numbers, a request has one answer: a buffer right behind all others if what it takes up is left in the window, and
a refusal that changes nothing if not. Memory gives that answer unless one of the two sums does not fit its word.
-/

namespace BitSerial

/-- A buffer takes up at least one byte, and whole aligned units. -/
theorem Buffer.footprint_isLeast (bytes : Nat) :
    IsLeast {size | max bytes 1 ≤ size ∧ addressAlign ∣ size} (footprint bytes) :=
  quotientUp_isLeast (by decide)

/-- Only requests for almost all addresses take up more than a word can count. -/
theorem Buffer.footprint_lt_iff (bytes : Nat) :
    footprint bytes < Word64.size ↔ bytes ≤ Word64.size - addressAlign := by
  unfold footprint addressAlign Word64.size
  omega

namespace Dealings

/-- The bytes of the window that are gone, those of released buffers included. -/
def taken (dealings : Dealings) : Nat := (dealings.handedOut.map fun buffer => Buffer.footprint buffer.bytes).sum

/-- The bytes of a window that are left. -/
def room (dealings : Dealings) (capacity : Nat) : Nat := capacity - dealings.taken

end Dealings

namespace Memory

variable {capacity : Nat} {dealings : Dealings} {memory after : Memory}

/-- An allocation moves the next buffer forward by the footprint of what it hands out. -/
theorem next_of_allocate {bytes : Nat} {answer : Except MemoryDefect Buffer}
    (h : memory.allocate bytes = .ok (answer, after)) (hnext : memory.next = windowBase + dealings.taken) :
    after.next = windowBase + Dealings.taken (.allocated bytes answer :: dealings) := by
  rw [allocate_eq] at h
  split_ifs at h
  · cases h
    exact hnext
  · cases h
    change memory.next + Buffer.footprint bytes = windowBase + (Buffer.footprint bytes + dealings.taken)
    omega

/-- The next buffer comes right behind the footprints of all that were handed out. -/
theorem Dealt.next_eq (h : Dealt capacity dealings memory) : memory.next = windowBase + dealings.taken := by
  induction h with
  | made => rfl
  | allocated _ hallocate ih => exact next_of_allocate hallocate ih
  | freed _ address ih => exact ih
  -- copies do not move the window
  | copiedIn _ hcopy ih =>
    rcases copyIn_eq_ok hcopy with ⟨rfl, hwrite⟩ | ⟨⟨defect, rfl⟩, rfl⟩
    · obtain ⟨_, rfl⟩ := write_eq_ok_iff.mp hwrite
      exact ih
    · exact ih
  | copiedOut _ hcopy ih =>
    obtain ⟨bytesRead, rfl⟩ := copyOut_frame hcopy
    exact ih

/-- The numbers of a request fit their words: the footprint, and the end of the buffer where there is room for it. -/
structure Fits (capacity : Nat) (dealings : Dealings) (bytes : Nat) : Prop where
  footprint : bytes ≤ Word64.size - addressAlign
  ends : Buffer.footprint bytes ≤ dealings.room capacity →
    windowBase + dealings.taken + Buffer.footprint bytes < Word64.size

/-- Memory answers a request by what is left of its window: with a buffer if that is enough, and with a refusal that
changes nothing if it is not. -/
structure Answers (capacity : Nat) (dealings : Dealings) (memory : Memory) (bytes : Nat) : Prop where
  granted : Buffer.footprint bytes ≤ dealings.room capacity →
    memory.allocate bytes = .ok (.ok ⟨windowBase + dealings.taken, bytes⟩, { memory with
      next := windowBase + dealings.taken + Buffer.footprint bytes
      regions := memory.regions ++ [⟨windowBase + dealings.taken, bytes, 0, 0⟩] })
  refused : dealings.room capacity < Buffer.footprint bytes →
    memory.allocate bytes = .ok (.error (.outOfMemory bytes (dealings.room capacity)), memory)

namespace Dealt

theorem used_eq (h : Dealt capacity dealings memory) : memory.used = dealings.taken := by
  rw [used, h.next_eq, Nat.add_sub_cancel_left]

/-- What allocating comes to, by the record of what was handed out. -/
theorem allocate_eq (h : Dealt capacity dealings memory) (bytes : Nat) : memory.allocate bytes =
    if Word64.size ≤ Buffer.footprint bytes then .error .overflow
    else if dealings.room capacity < Buffer.footprint bytes then
      .ok (.error (.outOfMemory bytes (dealings.room capacity)), memory)
    else if Word64.size ≤ windowBase + dealings.taken + Buffer.footprint bytes then .error .overflow
    else .ok (.ok ⟨windowBase + dealings.taken, bytes⟩, { memory with
      next := windowBase + dealings.taken + Buffer.footprint bytes
      regions := memory.regions ++ [⟨windowBase + dealings.taken, bytes, 0, 0⟩] }) := by
  rw [Memory.allocate_eq, h.used_eq, h.next_eq, h.accounted.limit]
  rfl

/-- A request whose numbers fit is answered. -/
theorem answers (h : Dealt capacity dealings memory) {bytes : Nat} (hfits : Fits capacity dealings bytes) :
    Answers capacity dealings memory bytes := by
  have hfootprint := Nat.not_le.mpr ((Buffer.footprint_lt_iff bytes).mpr hfits.footprint)
  constructor
  case granted =>
    intro hroom
    rw [h.allocate_eq, if_neg hfootprint, if_neg (Nat.not_lt.mpr hroom), if_neg (Nat.not_le.mpr (hfits.ends hroom))]
  case refused =>
    intro hroom
    rw [h.allocate_eq, if_neg hfootprint, if_pos hroom]

/-- A request whose numbers do not fit is a fault. -/
theorem allocate_faults (h : Dealt capacity dealings memory) {bytes : Nat}
    (hfits : ¬ Fits capacity dealings bytes) : memory.allocate bytes = .error .overflow := by
  rw [h.allocate_eq]
  by_cases hfootprint : Word64.size ≤ Buffer.footprint bytes
  · exact if_pos hfootprint
  have hends : ¬ (Buffer.footprint bytes ≤ dealings.room capacity →
      windowBase + dealings.taken + Buffer.footprint bytes < Word64.size) :=
    fun hends => hfits ⟨(Buffer.footprint_lt_iff bytes).mp (Nat.lt_of_not_le hfootprint), hends⟩
  obtain ⟨hroom, hfull⟩ := Classical.not_imp.mp hends
  rw [if_neg hfootprint, if_neg (Nat.not_lt.mpr hroom), if_pos (Nat.le_of_not_lt hfull)]

/-- In a window that ends within the address space, no buffer ends past it. -/
theorem fits_iff (h : Dealt capacity dealings memory) (hwindow : windowBase + capacity < Word64.size)
    (bytes : Nat) : Fits capacity dealings bytes ↔ bytes ≤ Word64.size - addressAlign := by
  refine ⟨Fits.footprint, fun hbytes => ⟨hbytes, fun hroom => ?_⟩⟩
  have hend := h.accounted.window.2
  rw [h.next_eq] at hend
  rw [Dealings.room] at hroom
  omega

end Dealt

/-- Memory answers a request as it should if and only if the numbers of the request fit, and whatever does not fit is a
fault. With an ordinary window, these are the requests for all but the last addresses. -/
theorem allocate_answers_iff (h : Dealt capacity dealings memory) (bytes : Nat) :
    memory.used = dealings.taken ∧
      IsLeast {size | max bytes 1 ≤ size ∧ addressAlign ∣ size} (Buffer.footprint bytes) ∧
      (Answers capacity dealings memory bytes ↔ Fits capacity dealings bytes) ∧
      (memory.allocate bytes = .error .overflow ↔ ¬ Fits capacity dealings bytes) ∧
      (windowBase + capacity < Word64.size →
        (Fits capacity dealings bytes ↔ bytes ≤ Word64.size - addressAlign)) := by
  have hfaults (hanswers : Answers capacity dealings memory bytes) : memory.allocate bytes ≠ .error .overflow := by
    rcases Nat.lt_or_ge (dealings.room capacity) (Buffer.footprint bytes) with hroom | hroom
    · rw [hanswers.refused hroom]
      nofun
    · rw [hanswers.granted hroom]
      nofun
  refine ⟨h.used_eq, Buffer.footprint_isLeast bytes, ⟨fun hanswers => ?_, h.answers⟩,
    ⟨fun hfault hfits => ?_, h.allocate_faults⟩, fun hwindow => h.fits_iff hwindow bytes⟩
  · by_contra hfits
    exact hfaults hanswers (h.allocate_faults hfits)
  · exact hfaults (h.answers hfits) hfault

/-- A buffer of 10 bytes takes up 64 of a window of 128. Of what is left, 64 bytes are granted and 65 are refused. -/
theorem allocate_answers_small : ∃ memory, Dealt 128 [.allocated 10 (.ok ⟨windowBase, 10⟩)] memory ∧
    memory.used = 64 ∧ (∃ after, memory.allocate 64 = .ok (.ok ⟨windowBase + 64, 64⟩, after)) ∧
      memory.allocate 65 = .ok (.error (.outOfMemory 65 64), memory) := by
  have hallocate : (ofCapacity 128).allocate 10 = .ok (.ok ⟨windowBase, 10⟩, { ofCapacity 128 with
      next := windowBase + 64
      regions := [⟨windowBase, 10, 0, 0⟩] }) :=
    allocate_total (by decide : roundUp (max 10 1) addressAlign = .ok 64) (by decide) (by decide)
  have hdealt := Dealt.made.allocated hallocate
  obtain ⟨hused, -, hgranted, -, hfits⟩ := allocate_answers_iff hdealt 64
  obtain ⟨-, -, hrefused, -, hfits'⟩ := allocate_answers_iff hdealt 65
  have hgranted := hgranted.mpr ((hfits (by decide)).mpr (by decide))
  have hrefused := hrefused.mpr ((hfits' (by decide)).mpr (by decide))
  exact ⟨_, hdealt, hused, ⟨_, hgranted.granted (by decide)⟩, hrefused.refused (by decide)⟩

/-- A request for all addresses is to be refused, but rounding it up is a fault. -/
theorem largest_request_faults : Dealt 128 [] (ofCapacity 128) ∧
    Dealings.room [] 128 < Buffer.footprint (Word64.size - 1) ∧
      (ofCapacity 128).allocate (Word64.size - 1) = .error .overflow := by
  refine ⟨.made, by decide, ?_⟩
  rw [allocate_eq]
  exact if_pos (by decide)

end Memory

end BitSerial
