import Mathlib.Algebra.GroupWithZero.Nat
import Mathlib.Data.Finset.Card
import Mathlib.Data.Finset.Union
import BitSerial.Proofs.Storage

/-! # Memory without pages

To those who write and read it, sparse memory is a map from addresses to bytes, all of them zero at first. Its pages
show in nothing but their number: there is one for every page that a byte was ever written to, whether or not the byte
was zero, and reading adds none.
-/

namespace BitSerial.Memory

/-- One access to memory. What is read goes into a block of host memory, which limits its length. -/
inductive Access where
  | write (address : Nat) (data : List UInt8)
  | read (address length : Nat) (hblock : length ≤ largestBlock)

namespace Access

/-- The address after the last byte of an access. -/
def finish : Access → Nat
  | write address data => address + data.length
  | read address length _ => address + length

def bytesWritten : Access → Nat
  | write _ data => data.length
  | read .. => 0

def bytesRead : Access → Nat
  | write .. => 0
  | read _ length _ => length

/-- The pages that an access writes a byte to. -/
def pages : Access → Finset Nat
  | write address data => (Finset.range data.length).image fun offset => (address + offset) / pageBytes
  | read .. => ∅

/-- The pages that some access writes a byte to. -/
def allPages : List Access → Finset Nat
  | [] => ∅
  | access :: later => access.pages ∪ allPages later

end Access

/-- Makes accesses one after the other. The answer is what was read, read by read. -/
def accessAll : List Access → Memory → Except Fault (List (List UInt8) × Memory)
  | [], memory => .ok ([], memory)
  | .write address data :: later, memory => do
    let memory ← memory.write address data
    accessAll later memory
  | .read address length _ :: later, memory => do
    let (bytes, memory) ← memory.read address length
    let (answers, memory) ← accessAll later memory
    return (bytes :: answers, memory)

/-- A byte at every address. -/
abbrev Flat := Nat → UInt8

namespace Flat

/-- Nothing was written yet. -/
def blank : Flat := fun _ => 0

def write (flat : Flat) (start : Nat) (data : List UInt8) : Flat := fun address =>
  if start ≤ address then data[address - start]?.getD (flat address) else flat address

def read (flat : Flat) (address length : Nat) : List UInt8 :=
  (List.range length).map fun offset => flat (address + offset)

/-- Makes accesses one after the other. The answer is what was read, read by read. -/
def accessAll : List Access → Flat → List (List UInt8) × Flat
  | [], flat => ([], flat)
  | .write address data :: later, flat => accessAll later (flat.write address data)
  | .read address length _ :: later, flat =>
    let (answers, last) := accessAll later flat
    (flat.read address length :: answers, last)

end Flat

/-- The pages of a range are the page of its first address and those of what is past the end of that page. -/
theorem exists_page_iff {start length number : Nat} (hpos : 0 < length) :
    (∃ offset < length, (start + offset) / pageBytes = number) ↔
      start / pageBytes = number ∨ ∃ offset < length - (pageBytes - start % pageBytes),
        (start + (pageBytes - start % pageBytes) + offset) / pageBytes = number := by
  constructor
  · rintro ⟨offset, hoffset, rfl⟩
    by_cases hroom : offset < pageBytes - start % pageBytes
    · left
      unfold pageBytes at hroom ⊢
      omega
    · refine .inr ⟨offset - (pageBytes - start % pageBytes), by omega, ?_⟩
      congr 1
      omega
  · rintro (rfl | ⟨offset, hoffset, rfl⟩)
    · exact ⟨0, hpos, rfl⟩
    · refine ⟨pageBytes - start % pageBytes + offset, by omega, ?_⟩
      rw [Nat.add_assoc]

/-- Storing creates the pages that it stores a byte to. -/
theorem mem_storePages_iff (data : List UInt8) (pages : Std.TreeMap Nat Page) (start number : Nat) :
    number ∈ storePages pages start data ↔
      number ∈ pages ∨ ∃ offset < data.length, (start + offset) / pageBytes = number := by
  induction hlength : data.length using Nat.strongRecOn generalizing data pages start with
  | ind length ih =>
    subst hlength
    cases data with
    | nil => simp [storePages]
    | cons first rest =>
      have hposition : start % pageBytes < pageBytes := Nat.mod_lt _ (by decide)
      have hpos : 0 < (first :: rest).length := Nat.succ_pos _
      rw [storePages]
      generalize first :: rest = data at hpos ih ⊢
      have hshorter : (data.drop (pageBytes - start % pageBytes)).length < data.length := by
        rw [List.length_drop]
        omega
      rw [ih _ hshorter _ _ _ rfl, exists_page_iff hpos, Std.TreeMap.mem_alter, List.length_drop]
      by_cases hnumber : start / pageBytes = number
      · simp [hnumber]
      · simp [hnumber]

/-- What sparse memory stores, seen without its pages, and the pages that it has. -/
structure Holds (memory : Memory) (flat : Flat) (numbers : Finset Nat) : Prop where
  byte : ∀ address, memory.byte address = flat address
  pages : ∀ number, number ∈ memory.pages ↔ number ∈ numbers

namespace Holds

variable {memory : Memory} {flat : Flat} {numbers : Finset Nat}

theorem ofCapacity (capacity : Nat) : Holds (.ofCapacity capacity) .blank ∅ where
  byte _ := rfl
  pages _ := by simp [Memory.ofCapacity]

/-- A page is counted once. -/
theorem pageCount (h : memory.Holds flat numbers) : memory.pageCount = numbers.card := by
  have hkeys : memory.pages.keys.toFinset = numbers := by
    ext number
    rw [List.mem_toFinset, Std.TreeMap.mem_keys, h.pages]
  calc memory.pageCount = memory.pages.keys.length := Std.TreeMap.length_keys.symm
    _ = memory.pages.keys.toFinset.card := (List.toFinset_card_of_nodup Std.TreeMap.nodup_keys).symm
    _ = numbers.card := by rw [hkeys]

theorem write (h : memory.Holds flat numbers) {address : Nat} {data : List UInt8}
    (hwithin : address + data.length < Word64.size) :
    ∃ after, memory.write address data = .ok after ∧
      after.Holds (flat.write address data) (numbers ∪ (Access.write address data).pages) ∧
      after.bytesWritten = memory.bytesWritten + data.length ∧ after.bytesRead = memory.bytesRead := by
  have hwrite : memory.write address data = .ok _ := write_eq_ok_iff.mpr ⟨.inr hwithin, rfl⟩
  refine ⟨_, hwrite, ⟨fun position => ?_, fun number => ?_⟩, rfl, rfl⟩
  · rw [byte_write hwrite, h.byte]
    rfl
  · rw [mem_storePages_iff, h.pages, Finset.mem_union]
    simp [Access.pages]

theorem read (h : memory.Holds flat numbers) {address length : Nat} (hblock : length ≤ largestBlock)
    (hwithin : address + length < Word64.size) :
    ∃ after, memory.read address length = .ok (flat.read address length, after) ∧ after.Holds flat numbers ∧
      after.bytesWritten = memory.bytesWritten ∧ after.bytesRead = memory.bytesRead + length := by
  have hbytes : readPages memory.pages address length = flat.read address length := by
    rw [readPages_eq_bytesFrom]
    exact List.map_congr_left fun offset _ => h.byte (address + offset)
  refine ⟨{ memory with bytesRead := memory.bytesRead + length }, ?_, ⟨h.byte, h.pages⟩, rfl, rfl⟩
  have hreserve : reserve length = .ok () := if_pos hblock
  rw [Memory.read, hreserve, if_pos (.inr hwithin), hbytes]
  rfl

/-- Accesses that end within the address space come through, with the answers of flat memory. -/
theorem accessAll (accesses : List Access) (h : memory.Holds flat numbers)
    (hwithin : ∀ access ∈ accesses, access.finish < Word64.size) :
    ∃ after, Memory.accessAll accesses memory = .ok ((Flat.accessAll accesses flat).1, after) ∧
      after.Holds (Flat.accessAll accesses flat).2 (numbers ∪ Access.allPages accesses) ∧
      after.bytesWritten = memory.bytesWritten + (accesses.map Access.bytesWritten).sum ∧
      after.bytesRead = memory.bytesRead + (accesses.map Access.bytesRead).sum := by
  induction accesses generalizing memory flat numbers with
  | nil =>
    refine ⟨memory, rfl, ?_, rfl, rfl⟩
    rwa [Access.allPages, Finset.union_empty]
  | cons access later ih =>
    obtain ⟨hfirst, hlater⟩ := List.forall_mem_cons.mp hwithin
    rw [List.map_cons, List.sum_cons, List.map_cons, List.sum_cons, Access.allPages, ← Finset.union_assoc,
      ← Nat.add_assoc, ← Nat.add_assoc]
    cases access with
    | write address data =>
      obtain ⟨middle, hwrite, hmiddle, hwritten, hread⟩ := h.write hfirst
      obtain ⟨after, haccess, hafter⟩ := ih hmiddle hlater
      rw [hwritten, hread] at hafter
      exact ⟨after, bind_eq_ok_iff.mpr ⟨middle, hwrite, haccess⟩, hafter⟩
    | read address length hblock =>
      obtain ⟨middle, hanswer, hmiddle, hwritten, hread⟩ := h.read hblock hfirst
      obtain ⟨after, haccess, hafter⟩ := ih hmiddle hlater
      rw [hwritten, hread] at hafter
      refine ⟨after, bind_eq_ok_iff.mpr ⟨_, hanswer, bind_eq_ok_iff.mpr ⟨_, haccess, rfl⟩⟩, ?_⟩
      rw [Access.pages, Finset.union_empty]
      exact hafter

end Holds

/-- Sparse memory is flat memory: whatever is written and read below the end of the address space, nothing fails, every
read gives what was written last, the totals are the lengths summed up, and there are as many pages as were written
to. -/
theorem sparse_eq_flat (capacity : Nat) (accesses : List Access)
    (hwithin : ∀ access ∈ accesses, access.finish < Word64.size) :
    ∃ after, accessAll accesses (.ofCapacity capacity) = .ok ((Flat.accessAll accesses .blank).1, after) ∧
      (∀ address, after.byte address = (Flat.accessAll accesses .blank).2 address) ∧
      after.bytesWritten = (accesses.map Access.bytesWritten).sum ∧
      after.bytesRead = (accesses.map Access.bytesRead).sum ∧
      after.pageCount = (Access.allPages accesses).card := by
  obtain ⟨after, haccess, hholds, hwritten, hread⟩ := (Holds.ofCapacity capacity).accessAll accesses hwithin
  have hpages := hholds.pageCount
  rw [Finset.empty_union] at hpages
  refine ⟨after, haccess, hholds.byte, hwritten.trans ?_, hread.trans ?_, hpages⟩
  · exact Nat.zero_add _
  · exact Nat.zero_add _

/-- Writes that cross the end of a page, overlap and are empty, with reads before and after them. -/
theorem sparse_eq_flat_crossing :
    let accesses : List Access := [.read 4090 4 (by decide), .write 4094 [1, 2, 3, 4], .write 20000 [],
      .write 4097 [9], .read 4093 6 (by decide)]
    (∀ access ∈ accesses, access.finish < Word64.size) ∧
      ∃ after, accessAll accesses (.ofCapacity 0) = .ok ([[0, 0, 0, 0], [0, 1, 2, 3, 9, 0]], after) ∧
        after.byte 4096 = 3 ∧ after.bytesWritten = 5 ∧ after.bytesRead = 10 ∧ after.pageCount = 2 := by
  intro accesses
  have hwithin : ∀ access ∈ accesses, access.finish < Word64.size := by decide
  obtain ⟨after, haccess, hbyte, hwritten, hread, hpages⟩ := sparse_eq_flat 0 accesses hwithin
  exact ⟨hwithin, after, haccess, hbyte 4096, hwritten, hread, hpages.trans (by decide)⟩

end BitSerial.Memory
