import BitSerial.Memory
import BitSerial.Proofs.Outcome

/-! # What is in memory

Pages are only a way to store bytes: writing changes the bytes that are written and no others. Everything later speaks
of single bytes and of the content of ranges.
-/

namespace BitSerial

namespace Page

theorem byte_blank (position : Nat) : blank.byte position = 0 := by
  unfold byte blank
  rw [Vector.getElem?_replicate]
  split <;> rfl

/-- Splicing changes the bytes that are spliced in, as far as the page goes. -/
theorem byte_splice (page : Page) (start : Nat) (data : List UInt8) (position : Nat) :
    (page.splice start data).byte position =
      if start ≤ position ∧ position < pageBytes then data[position - start]?.getD (page.byte position)
      else page.byte position := by
  induction data generalizing page start with
  | nil => simp [splice]
  | cons first rest ih =>
    have hset : byte (page.setIfInBounds start first) position =
        if start = position ∧ position < pageBytes then first else page.byte position := by
      unfold byte
      rw [Vector.getElem?_setIfInBounds]
      by_cases hstart : start = position
      · subst hstart
        by_cases hlt : start < pageBytes
        · simp [hlt]
        · simp [hlt]
      · simp [hstart]
    rw [splice, ih, hset]
    by_cases hlt : position < pageBytes
    · rcases Nat.lt_trichotomy start position with hbefore | hat | hafter
      · have hindex : position - start = (position - (start + 1)) + 1 := by omega
        rw [if_pos ⟨hbefore, hlt⟩, if_neg (by omega), if_pos ⟨Nat.le_of_lt hbefore, hlt⟩, hindex,
          List.getElem?_cons_succ]
      · subst hat
        rw [if_neg (by omega), if_pos ⟨rfl, hlt⟩, if_pos ⟨Nat.le_refl _, hlt⟩, Nat.sub_self, List.getElem?_cons_zero,
          Option.getD_some]
      · rw [if_neg (by omega), if_neg (by omega), if_neg (by omega)]
    · rw [if_neg (by omega), if_neg (by omega), if_neg (by omega)]

end Page

/-- The bytes of the window that a buffer takes up. -/
def Buffer.footprint (bytes : Nat) : Nat := (max bytes 1 + addressAlign - 1) / addressAlign * addressAlign

namespace Memory

/-- The byte that pages hold at an address. -/
def byteIn (pages : Std.TreeMap Nat Page) (address : Nat) : UInt8 :=
  match pages[address / pageBytes]? with
  | none => 0
  | some page => page.byte (address % pageBytes)

theorem byteIn_alter (pages : Std.TreeMap Nat Page) (number start : Nat) (data : List UInt8) (address : Nat) :
    byteIn (pages.alter number fun page? => some ((page?.getD Page.blank).splice start data)) address =
      if number = address / pageBytes ∧ start ≤ address % pageBytes then
        data[address % pageBytes - start]?.getD (byteIn pages address)
      else byteIn pages address := by
  have hlt : address % pageBytes < pageBytes := Nat.mod_lt _ (by decide)
  unfold byteIn
  rw [Std.TreeMap.getElem?_alter]
  by_cases hnumber : number = address / pageBytes
  · subst hnumber
    simp only [Std.ReflCmp.compare_self, if_true, true_and]
    rw [Page.byte_splice]
    cases pages[address / pageBytes]? with
    | none => simp [hlt, Page.byte_blank]
    | some page => simp [hlt]
  · simp [hnumber]

/-- Storing changes the bytes that are stored and no others. -/
theorem byteIn_storePages (data : List UInt8) (pages : Std.TreeMap Nat Page) (start address : Nat) :
    byteIn (storePages pages start data) address =
      if start ≤ address then data[address - start]?.getD (byteIn pages address) else byteIn pages address := by
  induction hlength : data.length using Nat.strongRecOn generalizing data pages start with
  | ind length ih =>
    cases data with
    | nil => simp [storePages]
    | cons first rest =>
      have hroom : 0 < pageBytes - start % pageBytes := Nat.sub_pos_of_lt (Nat.mod_lt _ (by decide))
      have hshorter : ((first :: rest).drop (pageBytes - start % pageBytes)).length < length := by
        rw [List.length_drop, hlength, ← hlength, List.length_cons]
        omega
      rw [storePages]
      rw [ih _ hshorter _ _ _ rfl, byteIn_alter, List.getElem?_drop]
      generalize first :: rest = data
      unfold pageBytes at hroom ⊢
      by_cases hlater : start + (4096 - start % 4096) ≤ address
      · have hindex : 4096 - start % 4096 + (address - (start + (4096 - start % 4096))) = address - start := by omega
        rw [if_pos hlater, if_neg (by omega), if_pos (by omega), hindex]
      · rw [if_neg hlater]
        by_cases hstart : start ≤ address
        · have hindex : address % 4096 - start % 4096 = address - start := by omega
          rw [if_pos (by omega), if_pos hstart, hindex, List.getElem?_take_of_lt (by omega)]
        · rw [if_neg hstart]
          by_cases hpage : start / 4096 = address / 4096
          · rw [if_neg (by omega)]
          · rw [if_neg (by omega)]

variable {memory after : Memory} {start : Nat} {data : List UInt8}

/-- What writing does. -/
theorem write_eq_ok_iff :
    memory.write start data = .ok after ↔ (data = [] ∨ start + data.length < Word64.size) ∧
      after = { memory with
        pages := storePages memory.pages start data
        bytesWritten := memory.bytesWritten + data.length } := by
  unfold write
  split
  next h => simp [h, eq_comm]
  next h => simp [h]

theorem byte_write (h : memory.write start data = .ok after) (address : Nat) :
    after.byte address =
      if start ≤ address then data[address - start]?.getD (memory.byte address) else memory.byte address := by
  obtain ⟨_, rfl⟩ := write_eq_ok_iff.mp h
  exact byteIn_storePages data memory.pages start address

/-- A byte outside of what is written stays. -/
theorem byte_write_of_outside (h : memory.write start data = .ok after) {address : Nat}
    (houtside : address < start ∨ start + data.length ≤ address) : after.byte address = memory.byte address := by
  rw [byte_write h]
  split
  next hstart =>
    rw [List.getElem?_eq_none (by omega), Option.getD_none]
  next => rfl

theorem byte_clear {length : Nat} (h : memory.clear start length = .ok after) (address : Nat) :
    after.byte address = if start ≤ address ∧ address < start + length then 0 else memory.byte address := by
  rw [clear_eq_write] at h
  rw [byte_write h, List.getElem?_replicate]
  split
  next hstart =>
    by_cases hend : address < start + length
    · rw [if_pos (by omega), if_pos ⟨hstart, hend⟩, Option.getD_some]
    · rw [if_neg (by omega), if_neg fun hinside => hend hinside.2, Option.getD_none]
  next hstart => rw [if_neg fun hinside => hstart hinside.1]

theorem getElem?_bytesFrom (memory : Memory) (address length index : Nat) :
    (memory.bytesFrom address length)[index]? = if index < length then some (memory.byte (address + index)) else none := by
  unfold bytesFrom
  rw [List.getElem?_map]
  split
  next hindex => rw [List.getElem?_range hindex, Option.map_some]
  next hindex => rw [List.getElem?_eq_none (by simpa using hindex), Option.map_none]

/-- Within a page, addresses and positions go up together. -/
theorem pageSlice_eq (pages : Std.TreeMap Nat Page) {address count : Nat}
    (hcount : address % pageBytes + count ≤ pageBytes) :
    pageSlice pages address count = (List.range count).map fun offset => byteIn pages (address + offset) := by
  have hwithin {offset : Nat} (hoffset : offset < count) :
      (address + offset) / pageBytes = address / pageBytes ∧
        (address + offset) % pageBytes = address % pageBytes + offset := by
    unfold pageBytes at hcount ⊢
    omega
  unfold pageSlice byteIn
  cases hpage : pages[address / pageBytes]? with
  | none =>
    apply List.ext_getElem
    · simp
    · intro offset hoffset _
      rw [List.length_replicate] at hoffset
      simp [(hwithin hoffset).1, hpage]
  | some page =>
    apply List.map_congr_left
    intro offset hoffset
    have hoffset := hwithin (List.mem_range.mp hoffset)
    simp [hoffset.1, hoffset.2, hpage]

/-- Reading page by page misses no byte and takes none twice. -/
theorem getElem?_readPages (pages : Std.TreeMap Nat Page) (address length index : Nat) :
    (readPages pages address length)[index]? = if index < length then some (byteIn pages (address + index)) else none := by
  induction hlength : length using Nat.strongRecOn generalizing address length index with
  | ind _ ih =>
    subst hlength
    rw [readPages]
    by_cases hzero : length = 0
    · rw [if_pos hzero, if_neg (by omega), List.getElem?_nil]
    have hposition : address % pageBytes < pageBytes := Nat.mod_lt _ (by decide)
    rw [if_neg hzero]
    dsimp only
    have hwithin : address % pageBytes + min (pageBytes - address % pageBytes) length ≤ pageBytes := by omega
    rw [pageSlice_eq pages hwithin, List.getElem?_append, List.length_map, List.length_range]
    by_cases hpage : index < min (pageBytes - address % pageBytes) length
    · rw [if_pos hpage, List.getElem?_map, List.getElem?_range hpage, if_pos (by omega), Option.map_some]
    · rw [if_neg hpage, ih _ (by omega) _ _ _ rfl]
      by_cases hindex : index < length
      · rw [if_pos (by omega), if_pos hindex]
        congr 2
        omega
      · rw [if_neg (by omega), if_neg hindex]

/-- What is read is the content of the range. -/
theorem readPages_eq_bytesFrom (memory : Memory) (address length : Nat) :
    readPages memory.pages address length = memory.bytesFrom address length := by
  apply List.ext_getElem?
  intro index
  rw [getElem?_readPages, getElem?_bytesFrom]
  rfl

/-- What was written is there. -/
theorem bytesFrom_write (h : memory.write start data = .ok after) : after.bytesFrom start data.length = data := by
  apply List.ext_getElem?
  intro index
  rw [getElem?_bytesFrom, byte_write h]
  split
  next hindex =>
    rw [if_pos (Nat.le_add_right _ _), Nat.add_sub_cancel_left, List.getElem?_eq_getElem hindex, Option.getD_some]
  next hindex => exact (List.getElem?_eq_none (Nat.le_of_not_lt hindex)).symm

/-- A range that is not written keeps its content. -/
theorem bytesFrom_write_of_disjoint (h : memory.write start data = .ok after) {address length : Nat}
    (hdisjoint : address + length ≤ start ∨ start + data.length ≤ address) :
    after.bytesFrom address length = memory.bytesFrom address length := by
  apply List.map_congr_left
  intro offset hoffset
  have := List.mem_range.mp hoffset
  exact byte_write_of_outside h (by omega)

/-- Rounding a request up finds the footprint of its buffer, if a word holds it. -/
theorem roundUp_footprint (bytes : Nat) :
    roundUp (max bytes 1) addressAlign = Word64.fit (Buffer.footprint bytes) := if_neg (by decide)

/-- What allocating comes to, by exact numbers. -/
theorem allocate_eq (memory : Memory) (bytes : Nat) : memory.allocate bytes =
    if Word64.size ≤ Buffer.footprint bytes then .error .overflow
    else if memory.capacity - memory.used < Buffer.footprint bytes then
      .ok (.error (.outOfMemory bytes (memory.capacity - memory.used)), memory)
    else if Word64.size ≤ memory.next + Buffer.footprint bytes then .error .overflow
    else .ok (.ok ⟨memory.next, bytes⟩, { memory with
      next := memory.next + Buffer.footprint bytes
      regions := memory.regions ++ [⟨memory.next, bytes, 0, 0⟩] }) := by
  unfold allocate
  rw [roundUp_footprint]
  by_cases hfootprint : Word64.size ≤ Buffer.footprint bytes
  · rw [Word64.fit, if_neg (Nat.not_lt.mpr hfootprint), if_pos hfootprint]
    rfl
  rw [bind_of_ok (Word64.fit_eq_ok (Nat.lt_of_not_le hfootprint)), if_neg hfootprint]
  dsimp only
  by_cases hroom : memory.capacity - memory.used < Buffer.footprint bytes
  · rw [if_neg (Nat.not_le.mpr hroom), if_pos hroom]
    rfl
  rw [if_pos (Nat.le_of_not_lt hroom), if_neg hroom, Word64.add]
  by_cases hnext : Word64.size ≤ memory.next + Buffer.footprint bytes
  · rw [Word64.fit, if_neg (Nat.not_lt.mpr hnext), if_pos hnext]
    rfl
  · rw [bind_of_ok (Word64.fit_eq_ok (Nat.lt_of_not_le hnext)), if_neg hnext]
    rfl

/-- A buffer is cut from the part of the window that is not gone, and nothing but that part changes. -/
theorem allocate_eq_ok {bytes : Nat} {buffer : Buffer} (h : memory.allocate bytes = .ok (.ok buffer, after)) :
    buffer = ⟨memory.next, bytes⟩ ∧ ∃ size, bytes ≤ size ∧ 0 < size ∧ size % addressAlign = 0 ∧
      size ≤ memory.capacity - memory.used ∧ memory.next + size < Word64.size ∧
      after = { memory with
        next := memory.next + size
        regions := memory.regions ++ [⟨memory.next, bytes, 0, 0⟩] } := by
  rw [allocate_eq] at h
  split at h
  · cases h
  split at h
  · cases h
  split at h
  · cases h
  next hfootprint hroom hnext =>
    cases h
    have hsize : bytes ≤ Buffer.footprint bytes ∧ 0 < Buffer.footprint bytes := by
      unfold Buffer.footprint addressAlign
      omega
    exact ⟨rfl, _, hsize.1, hsize.2, Nat.mul_mod_left _ _, Nat.le_of_not_lt hroom, Nat.lt_of_not_le hnext, rfl⟩

/-- A buffer that is refused changes nothing. -/
theorem allocate_eq_refused {bytes : Nat} {defect : MemoryDefect}
    (h : memory.allocate bytes = .ok (.error defect, after)) : after = memory := by
  rw [allocate_eq] at h
  split at h
  · cases h
  split at h
  · cases h
    rfl
  split at h
  · cases h
  · cases h

/-- Copying into a buffer writes, or is refused and changes nothing. -/
theorem copyIn_eq_ok {answer : Except MemoryDefect Unit} (h : memory.copyIn start data = .ok (answer, after)) :
    answer = .ok () ∧ memory.write start data = .ok after ∨ (∃ defect, answer = .error defect) ∧ after = memory := by
  unfold copyIn at h
  split at h
  next defect _ =>
    cases h
    exact .inr ⟨⟨defect, rfl⟩, rfl⟩
  next =>
    simp only [bind_eq_ok_iff, pure_eq_ok_iff, Prod.mk.injEq] at h
    obtain ⟨_, hwrite, rfl, rfl⟩ := h
    exact .inl ⟨rfl, hwrite⟩

/-- Reading only counts what was read. -/
theorem read_frame {length : Nat} (h : memory.read start length = .ok (data, after)) :
    ∃ bytesRead, after = { memory with bytesRead } := by
  simp only [read, bind_eq_ok_iff] at h
  obtain ⟨_, _, h⟩ := h
  split at h
  next =>
    cases h
    exact ⟨_, rfl⟩
  next => cases h

/-- Copying out of a buffer only counts what was read. -/
theorem copyOut_frame {length : Nat} {answer : Except MemoryDefect (List UInt8)}
    (h : memory.copyOut start length = .ok (answer, after)) : ∃ bytesRead, after = { memory with bytesRead } := by
  simp only [copyOut, bind_eq_ok_iff] at h
  obtain ⟨_, _, h⟩ := h
  split at h
  next =>
    cases h
    exact ⟨memory.bytesRead, rfl⟩
  next =>
    simp only [bind_eq_ok_iff, pure_eq_ok_iff, Prod.exists, Prod.mk.injEq] at h
    obtain ⟨_, _, hread, _, rfl⟩ := h
    exact read_frame hread

/-- Copying out of a live buffer comes through with its content. -/
theorem copyOut_total {length : Nat} (hlive : memory.checkCopy start length = .ok ())
    (hroom : start + length < Word64.size) (hlength : length ≤ largestBlock) :
    ∃ after, memory.copyOut start length = .ok (.ok (memory.bytesFrom start length), after) := by
  have hreserve : reserve length = .ok () := if_pos hlength
  unfold copyOut read
  rw [hlive, hreserve, if_pos (.inr hroom), readPages_eq_bytesFrom]
  exact ⟨_, rfl⟩

/-- Copying into a live buffer comes through. -/
theorem copyIn_total (hlive : memory.checkCopy start data.length = .ok ()) (hroom : start + data.length < Word64.size) :
    ∃ after, memory.write start data = .ok after ∧ memory.copyIn start data = .ok (.ok (), after) := by
  have hwrite : memory.write start data = .ok _ := write_eq_ok_iff.mpr ⟨.inr hroom, rfl⟩
  refine ⟨_, hwrite, ?_⟩
  unfold copyIn
  rw [hlive]
  exact bind_eq_ok_iff.mpr ⟨_, hwrite, rfl⟩

/-- Part of a range is a range. -/
theorem extract_bytesFrom (memory : Memory) {address length offset count : Nat} (h : offset + count ≤ length) :
    (memory.bytesFrom address length).extract offset (offset + count) = memory.bytesFrom (address + offset) count := by
  apply List.ext_getElem?
  intro index
  rw [List.extract_eq_take_drop, Nat.add_sub_cancel_left, List.getElem?_take, List.getElem?_drop, getElem?_bytesFrom,
    getElem?_bytesFrom, Nat.add_assoc]
  by_cases hindex : index < count
  · rw [if_pos hindex, if_pos hindex, if_pos (by omega)]
  · rw [if_neg hindex, if_neg hindex]

end Memory

end BitSerial
