import Std.Data.TreeMap
import BitSerial.Refusal

/-! # Device memory

Memory is sparse: pages come into being when they are first written, and what was never written reads as zero. Buffers
are cut from a window by an allocator that only moves forward, so the space of a released buffer is not used again.
Each live buffer is a region that also counts the transfers of the stages that touched it.
-/

namespace BitSerial

/-- The bytes of a page. -/
def pageBytes : Nat := 4096

/-- The content of a page. -/
abbrev Page := Vector UInt8 pageBytes

namespace Page

/-- A page that was never written. -/
def blank : Page := Vector.replicate pageBytes 0

/-- The byte at a position of a page. Past its end there is nothing but zero. -/
def byte (page : Page) (position : Nat) : UInt8 := page[position]?.getD 0

/-- Consecutive bytes of a page. -/
def slice (page : Page) (position count : Nat) : List UInt8 :=
  (List.range count).map fun offset => page.byte (position + offset)

/-- Writes consecutive bytes into a page. Bytes past its end are lost. -/
def splice (page : Page) (position : Nat) : List UInt8 → Page
  | [] => page
  | first :: rest => splice (page.setIfInBounds position first) (position + 1) rest

/-- Zeros change nothing on a page that was never written. -/
theorem blank_splice_replicate (count : Nat) :
    ∀ position, blank.splice position (List.replicate count 0) = blank := by
  induction count with
  | zero => exact fun _ => rfl
  | succ count ih =>
    intro position
    have hset : blank.setIfInBounds position 0 = blank := by
      apply Vector.ext
      intro index hindex
      rw [Vector.getElem_setIfInBounds hindex]
      split
      · exact (Vector.getElem_replicate hindex).symm
      · rfl
    rw [List.replicate_succ, splice, hset]
    exact ih (position + 1)

end Page

/-- A live buffer and the stage transfers that touched it, which are counted one by one, in plain numbers. -/
structure Region where
  address : Nat
  bytes : Nat
  /-- Transfers that read from this region. -/
  reads : Nat
  /-- Transfers that wrote to this region. -/
  writes : Nat
  deriving DecidableEq, Repr

/-- Whether a range of addresses and a region have a byte in common. Ends past the last address stop there. -/
def Region.overlaps (region : Region) (address length : Nat) : Bool :=
  address < Word64.saturatingAdd region.address region.bytes &&
    region.address < Word64.saturatingAdd address length

/-- A buffer as it was handed out. -/
structure Buffer where
  address : Nat
  bytes : Nat
  deriving DecidableEq, Repr

/-- Sparse memory with its allocator. Bytes are counted as they are stored or read, one by one, in plain numbers. -/
structure Memory where
  /-- The pages written so far, by page number. -/
  pages : Std.TreeMap Nat Page
  /-- The live regions, in the order of their addresses. -/
  regions : List Region
  /-- The address that the next buffer gets. -/
  next : Nat
  /-- The bytes of the window that buffers are cut from. -/
  capacity : Nat
  /-- Bytes written by the host and the stages. -/
  bytesWritten : Nat
  /-- Bytes read by the host. -/
  bytesRead : Nat

namespace Memory

/-- The first address of the window. -/
def windowBase : Nat := 0x10000000

/-- The capacity of a window that nobody limited: 256 MiB. -/
def defaultCapacity : Nat := 256 * 1024 * 1024

/-- Memory that was never used. -/
def ofCapacity (capacity : Nat) : Memory where
  pages := ∅
  regions := []
  next := windowBase
  capacity := capacity
  bytesWritten := 0
  bytesRead := 0

variable (memory : Memory)

/-- The bytes of the window that are gone. -/
def used : Nat := memory.next - windowBase

/-- The byte at an address. -/
def byte (address : Nat) : UInt8 :=
  match memory.pages[address / pageBytes]? with
  | none => 0
  | some page => page.byte (address % pageBytes)

/-- The number of pages written so far. -/
def pageCount : Nat := memory.pages.size

/-- The live region that starts at an address. -/
def regionFrom? (address : Nat) : Option Region := memory.regions.find? (·.address = address)

/-- The first live region that shares a byte with a range of addresses. -/
def regionAt? (address length : Nat) : Option Region := memory.regions.find? (·.overlaps address length)

/-- Cuts a buffer from the window, rounded up for the fetch stage. -/
def allocate (bytes : Nat) : Except Fault (Except MemoryDefect Buffer × Memory) := do
  let size ← roundUp (max bytes 1) addressAlign
  let available := memory.capacity - memory.used
  if size ≤ available then
    let next ← Word64.add memory.next size
    let region : Region := ⟨memory.next, bytes, 0, 0⟩
    return (.ok ⟨memory.next, bytes⟩, { memory with next, regions := memory.regions ++ [region] })
  else
    return (.error (.outOfMemory bytes available), memory)

/-- Releases the buffer at an address. An address without one is ignored. -/
def free (address : Nat) : Memory :=
  { memory with regions := memory.regions.filter (·.address ≠ address) }

/-- Stores consecutive bytes page by page. -/
def storePages (pages : Std.TreeMap Nat Page) (address : Nat) (data : List UInt8) : Std.TreeMap Nat Page :=
  match data with
  | [] => pages
  | first :: rest =>
    let room := pageBytes - address % pageBytes
    let data := first :: rest
    let pages := pages.alter (address / pageBytes) fun page? =>
      some ((page?.getD Page.blank).splice (address % pageBytes) (data.take room))
    storePages pages (address + room) (data.drop room)
termination_by data.length
decreasing_by
  have := Nat.mod_lt address (show 0 < pageBytes by decide)
  simp only [List.length_drop, List.length_cons]
  omega

/-- Writes bytes from an address on. Writing up to the very end of the address space is a fault. -/
def write (address : Nat) (data : List UInt8) : Except Fault Memory :=
  if data = [] ∨ address + data.length < Word64.size then
    .ok { memory with
      pages := storePages memory.pages address data
      bytesWritten := memory.bytesWritten + data.length }
  else
    .error .overflow

/-- Clears consecutive bytes page by page. A page that was never written is blank already, but it comes into being. -/
def clearPages (pages : Std.TreeMap Nat Page) (address length : Nat) : Std.TreeMap Nat Page :=
  if length = 0 then pages
  else
    let room := pageBytes - address % pageBytes
    let pages := pages.alter (address / pageBytes) fun page? =>
      match page? with
      | none => some Page.blank
      | some page => some (page.splice (address % pageBytes) (List.replicate (min room length) 0))
    clearPages pages (address + room) (length - room)
termination_by length
decreasing_by
  have := Nat.mod_lt address (show 0 < pageBytes by decide)
  omega

/-- Writes a number of zeros from an address on. -/
def clear (address length : Nat) : Except Fault Memory :=
  if length = 0 ∨ address + length < Word64.size then
    .ok { memory with
      pages := clearPages memory.pages address length
      bytesWritten := memory.bytesWritten + length }
  else
    .error .overflow

/-- The bytes from an address on. -/
def bytesFrom (address length : Nat) : List UInt8 :=
  (List.range length).map fun offset => memory.byte (address + offset)

/-- Bytes from an address on that lie in the page of that address. A page that was never written gives zeros. -/
def pageSlice (pages : Std.TreeMap Nat Page) (address count : Nat) : List UInt8 :=
  match pages[address / pageBytes]? with
  | none => List.replicate count 0
  | some page => page.slice (address % pageBytes) count

/-- Collects consecutive bytes page by page. No page comes into being. -/
def readPages (pages : Std.TreeMap Nat Page) (address length : Nat) : List UInt8 :=
  if length = 0 then []
  else
    let room := pageBytes - address % pageBytes
    pageSlice pages address (min room length) ++ readPages pages (address + room) (length - room)
termination_by length
decreasing_by
  have := Nat.mod_lt address (show 0 < pageBytes by decide)
  omega

/-- Reads bytes from an address on. Reading up to the very end of the address space is a fault. -/
def read (address length : Nat) : Except Fault (List UInt8 × Memory) := do
  reserve length
  if length = 0 ∨ address + length < Word64.size then
    return (readPages memory.pages address length, { memory with bytesRead := memory.bytesRead + length })
  else
    throw .overflow

/-- Checks that a copy is within the live buffer at an address. -/
def checkCopy (address length : Nat) : Except MemoryDefect Unit :=
  match memory.regionFrom? address with
  | none => .error (.unknownBuffer address)
  | some region =>
    if length ≤ region.bytes then .ok () else .error (.outOfBounds address length region.bytes)

/-- Copies bytes of the host to the start of a live buffer. -/
def copyIn (address : Nat) (data : List UInt8) : Except Fault (Except MemoryDefect Unit × Memory) :=
  match memory.checkCopy address data.length with
  | .error defect => .ok (.error defect, memory)
  | .ok () => do
    let memory ← memory.write address data
    return (.ok (), memory)

/-- Clears bytes at the start of a live buffer. -/
def clearIn (address length : Nat) : Except Fault (Except MemoryDefect Unit × Memory) :=
  match memory.checkCopy address length with
  | .error defect => .ok (.error defect, memory)
  | .ok () => do
    let memory ← memory.clear address length
    return (.ok (), memory)

/-- Copies bytes from the start of a live buffer to the host, which has to set a block aside for them first. -/
def copyOut (address length : Nat) : Except Fault (Except MemoryDefect (List UInt8) × Memory) := do
  reserve length
  match memory.checkCopy address length with
  | .error defect => return (.error defect, memory)
  | .ok () =>
    let (data, memory) ← memory.read address length
    return (.ok data, memory)

/-- Changes the first region that shares a byte with a range of addresses. A range that touches none changes nothing. -/
def touch (f : Region → Region) (address length : Nat) : List Region → List Region
  | [] => []
  | region :: rest =>
    if region.overlaps address length then f region :: rest
    else region :: touch f address length rest

/-- Counts a stage transfer that read a range. -/
def countRead (address length : Nat) : Memory :=
  { memory with
    regions := touch (fun region => { region with reads := region.reads + 1 }) address length memory.regions }

/-- Counts a stage transfer that wrote a range. -/
def countWrite (address length : Nat) : Memory :=
  { memory with
    regions := touch (fun region => { region with writes := region.writes + 1 }) address length memory.regions }

/-- Clearing pages is storing zeros. -/
theorem clearPages_eq_storePages (length : Nat) :
    ∀ pages address, clearPages pages address length = storePages pages address (List.replicate length 0) := by
  induction length using Nat.strongRecOn with
  | ind length ih =>
    intro pages address
    cases length with
    | zero => rw [clearPages, List.replicate_zero, storePages, if_pos rfl]
    | succ count =>
      have hroom : 0 < pageBytes - address % pageBytes :=
        Nat.sub_pos_of_lt (Nat.mod_lt address (by decide))
      rw [clearPages, if_neg (Nat.succ_ne_zero count), List.replicate_succ, storePages, ← List.replicate_succ]
      simp only [List.take_replicate, List.drop_replicate]
      rw [ih _ (by omega)]
      congr 2
      funext page?
      cases page? with
      | none => exact congrArg some (Page.blank_splice_replicate _ _).symm
      | some page => rfl

/-- Clearing is writing zeros. -/
theorem clear_eq_write (address length : Nat) :
    memory.clear address length = memory.write address (List.replicate length 0) := by
  unfold clear write
  simp only [clearPages_eq_storePages, List.length_replicate, List.replicate_eq_nil_iff]

/-- Clearing in a buffer is copying zeros into it. -/
theorem clearIn_eq_copyIn (address length : Nat) :
    memory.clearIn address length = memory.copyIn address (List.replicate length 0) := by
  unfold clearIn copyIn
  rw [clear_eq_write, List.length_replicate]

/-- A line that sums up the memory. -/
def describe : String :=
  "DeviceDram \x7b allocated_pages: " ++ toString memory.pageCount ++
  ", live_buffers: " ++ toString memory.regions.length ++
  ", used: " ++ toString memory.used ++ ", capacity: " ++ toString memory.capacity ++ " \x7d"

end Memory

end BitSerial
