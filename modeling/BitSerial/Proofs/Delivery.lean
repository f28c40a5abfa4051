import Mathlib.Data.Set.Pairwise.Lattice
import Mathlib.Order.CompletePartialOrder
import Mathlib.Order.Interval.Set.Defs
import BitSerial.Proofs.Completion
import BitSerial.Proofs.Placement
import BitSerial.Proofs.Storage
import BitSerial.Proofs.Traffic

/-! # Where the result is written and read

Result instructions write the padded result element by element. The number of an element has the rows of the two
operands as its digits, and the digits of these are the row tiles and the rows within them. So every element is written
once, by the output tile of its rows, and where the host looks for it.
-/

namespace BitSerial

/-- An element of an output tile: the output tile, and the row of each operand within its tile. -/
structure TileElement where
  output : Nat
  rhsRow : Nat
  lhsRow : Nat
  deriving DecidableEq, Repr

namespace Schedule

/-- A schedule writes an element at an address. -/
def WritesAt (schedule : Schedule) (element : TileElement) (address : Nat) : Prop :=
  ∃ instruction, schedule.result[element.output]? = some instruction ∧
    element.rhsRow < instruction.command.rhsRows ∧ element.lhsRow < instruction.command.lhsRows ∧
    address = instruction.command.address + element.rhsRow * instruction.command.strideBytes +
      element.lhsRow * elementBytes

/-- The bytes that a schedule writes for an element. -/
def elementRange (schedule : Schedule) (element : TileElement) : Set Nat :=
  {byte | ∃ address, schedule.WritesAt element address ∧ byte ∈ Set.Ico address (address + elementBytes)}

end Schedule

namespace Layout

/-- Where the element of two rows of the padded operands belongs. -/
def elementAddress (layout : Layout) (rhsRow lhsRow : Nat) : Nat :=
  layout.addresses.result + (rhsRow * layout.gemm.lhs.paddedRows + lhsRow) * elementBytes

/-- How a schedule delivers a result of a number of bytes. -/
structure Delivers (layout : Layout) (schedule : Schedule) (bytes : Nat) : Prop where
  disjoint : Set.univ.PairwiseDisjoint schedule.elementRange
  cover : ⋃ element, schedule.elementRange element =
    Set.Ico layout.addresses.result (layout.addresses.result + bytes)
  /-- An element is written once, by the output tile of the row tiles that its rows are in. -/
  written : ∀ rhsRow < layout.gemm.rhs.paddedRows, ∀ lhsRow < layout.gemm.lhs.paddedRows,
    ∃ element instruction, schedule.WritesAt element (layout.elementAddress rhsRow lhsRow) ∧
      (∀ other, schedule.WritesAt other (layout.elementAddress rhsRow lhsRow) → other = element) ∧
      schedule.result[element.output]? = some instruction ∧
      instruction.token.tile = ⟨lhsRow / layout.plan.lhs.tileRows, rhsRow / layout.plan.rhs.tileRows, 0⟩
  /-- The host reads an element of the product where it was written. -/
  read : ∀ session : Session, session.gemm = layout.gemm → session.buffers.result.address = layout.addresses.result →
    session.device.memory.checkCopy layout.addresses.result bytes = .ok () →
    ∃ product after, session.readResult (layout.gemm.lhs.rows * layout.gemm.rhs.rows) = .ok (.ok product, after) ∧
      product.length = layout.gemm.rhs.rows * layout.gemm.lhs.rows ∧
      ∀ rhsRow < layout.gemm.rhs.rows, ∀ lhsRow < layout.gemm.lhs.rows,
        product[rhsRow * layout.gemm.lhs.rows + lhsRow]? =
          some (Session.element
            (session.device.memory.bytesFrom (layout.elementAddress rhsRow lhsRow) elementBytes))
  writeBytes : schedule.traffic.writeBytes = bytes
  /-- The last instruction announces all bytes, and no other one announces any. -/
  announced : ∀ output instruction, schedule.result[output]? = some instruction →
    instruction.command.totalBytes = if output + 1 = schedule.result.length then bytes else 0

section Elements

variable (layout : Layout)

structure HasElement (element : TileElement) : Prop where
  output : element.output < layout.nest.outputCount
  rhsRow : element.rhsRow < layout.plan.rhs.tileRows
  lhsRow : element.lhsRow < layout.plan.lhs.tileRows

/-- The number of an element in the padded result. -/
def elementNumber (element : TileElement) : Nat :=
  (layout.nest.rhsTile element.output * layout.plan.rhs.tileRows + element.rhsRow) * layout.gemm.lhs.paddedRows +
    (layout.nest.lhsTile element.output * layout.plan.lhs.tileRows + element.lhsRow)

/-- The element with a number. -/
def elementAt (number : Nat) : TileElement :=
  let rhsRow := number / layout.gemm.lhs.paddedRows
  let lhsRow := number % layout.gemm.lhs.paddedRows
  { output := lhsRow / layout.plan.lhs.tileRows * layout.nest.rhsTiles + rhsRow / layout.plan.rhs.tileRows
    rhsRow := rhsRow % layout.plan.rhs.tileRows
    lhsRow := lhsRow % layout.plan.lhs.tileRows }

variable {layout} {element : TileElement} {number : Nat}

namespace HasElement

theorem lhsRow_lt (h : layout.HasElement element) (hcuts : layout.plan.Cuts layout.geometry layout.gemm) :
    layout.nest.lhsTile element.output * layout.plan.lhs.tileRows + element.lhsRow < layout.gemm.lhs.paddedRows :=
  Nat.lt_of_lt_of_le (Nat.add_lt_add_left h.lhsRow _) (hcuts.tile_end .lhs (LoopNest.rowTile_lt h.output).1)

theorem rhsRow_lt (h : layout.HasElement element) (hcuts : layout.plan.Cuts layout.geometry layout.gemm) :
    layout.nest.rhsTile element.output * layout.plan.rhs.tileRows + element.rhsRow < layout.gemm.rhs.paddedRows :=
  Nat.lt_of_lt_of_le (Nat.add_lt_add_left h.rhsRow _) (hcuts.tile_end .rhs (LoopNest.rowTile_lt h.output).2)

theorem number_lt (h : layout.HasElement element) (hcuts : layout.plan.Cuts layout.geometry layout.gemm) :
    layout.elementNumber element < layout.gemm.rhs.paddedRows * layout.gemm.lhs.paddedRows :=
  mul_add_lt_mul (h.rhsRow_lt hcuts) (h.lhsRow_lt hcuts)

/-- The digits of the number of an element say which one it is. -/
theorem elementAt_number (h : layout.HasElement element)
    (hcuts : layout.plan.Cuts layout.geometry layout.gemm) :
    layout.elementAt (layout.elementNumber element) = element := by
  unfold elementAt elementNumber
  simp only [div_mod_of_lt _ (h.lhsRow_lt hcuts), div_mod_of_lt _ h.lhsRow, div_mod_of_lt _ h.rhsRow]
  unfold LoopNest.lhsTile LoopNest.rhsTile
  rw [Nat.div_add_mod']

end HasElement

theorem rowTiles_of_lt (hcuts : layout.plan.Cuts layout.geometry layout.gemm)
    (h : number < layout.gemm.rhs.paddedRows * layout.gemm.lhs.paddedRows) :
    number % layout.gemm.lhs.paddedRows / layout.plan.lhs.tileRows < layout.nest.lhsTiles ∧
      number / layout.gemm.lhs.paddedRows / layout.plan.rhs.tileRows < layout.nest.rhsTiles := by
  have hlhsTiles : layout.nest.lhsTiles * layout.plan.lhs.tileRows = layout.gemm.lhs.paddedRows :=
    (hcuts.tiling .lhs).rowTiles
  have hrhsTiles : layout.nest.rhsTiles * layout.plan.rhs.tileRows = layout.gemm.rhs.paddedRows :=
    (hcuts.tiling .rhs).rowTiles
  constructor
  · apply Nat.div_lt_of_lt_mul
    rw [Nat.mul_comm, hlhsTiles]
    exact Nat.mod_lt _ (hcuts.shape .lhs).paddedRows_pos
  · apply Nat.div_lt_of_lt_mul
    rw [Nat.mul_comm, hrhsTiles]
    apply Nat.div_lt_of_lt_mul
    rwa [Nat.mul_comm]

theorem hasElement_elementAt (hcuts : layout.plan.Cuts layout.geometry layout.gemm)
    (h : number < layout.gemm.rhs.paddedRows * layout.gemm.lhs.paddedRows) :
    layout.HasElement (layout.elementAt number) := by
  obtain ⟨hlhsTile, hrhsTile⟩ := rowTiles_of_lt hcuts h
  constructor
  · exact mul_add_lt_mul hlhsTile hrhsTile
  · exact Nat.mod_lt _ (hcuts.tiling .rhs).tileRows_pos
  · exact Nat.mod_lt _ (hcuts.tiling .lhs).tileRows_pos

theorem elementNumber_elementAt (hcuts : layout.plan.Cuts layout.geometry layout.gemm)
    (h : number < layout.gemm.rhs.paddedRows * layout.gemm.lhs.paddedRows) :
    layout.elementNumber (layout.elementAt number) = number := by
  obtain ⟨_, hrhsTile⟩ := rowTiles_of_lt hcuts h
  unfold elementNumber elementAt
  simp only [LoopNest.rowTile_eq hrhsTile]
  rw [Nat.div_add_mod', Nat.div_add_mod', Nat.div_add_mod']

/-- The output tile of an element is that of its rows. -/
theorem rowTiles_elementAt (hcuts : layout.plan.Cuts layout.geometry layout.gemm) {rhsRow lhsRow : Nat}
    (hrhsRow : rhsRow < layout.gemm.rhs.paddedRows) (hlhsRow : lhsRow < layout.gemm.lhs.paddedRows) :
    layout.nest.lhsTile (layout.elementAt (rhsRow * layout.gemm.lhs.paddedRows + lhsRow)).output =
        lhsRow / layout.plan.lhs.tileRows ∧
      layout.nest.rhsTile (layout.elementAt (rhsRow * layout.gemm.lhs.paddedRows + lhsRow)).output =
        rhsRow / layout.plan.rhs.tileRows := by
  obtain ⟨_, hrhsTile⟩ := rowTiles_of_lt hcuts (mul_add_lt_mul hrhsRow hlhsRow)
  unfold elementAt
  simp only [div_mod_of_lt _ hlhsRow] at hrhsTile ⊢
  exact LoopNest.rowTile_eq hrhsTile

/-- Tokens can say which row tiles an output tile has, if the result is small enough. -/
theorem low_rowTile (hcuts : layout.plan.Cuts layout.geometry layout.gemm) {bytes : Nat}
    (hbytes : layout.gemm.resultBytes = .ok bytes) (hsmall : bytes < Word32.size) {output : Nat}
    (houtput : output < layout.nest.outputCount) :
    Word32.low (layout.nest.lhsTile output) = layout.nest.lhsTile output ∧
      Word32.low (layout.nest.rhsTile output) = layout.nest.rhsTile output := by
  obtain ⟨hlhsTile, hrhsTile⟩ := LoopNest.rowTile_lt houtput
  have hrowTiles (operand : Operand) : (layout.plan.operand operand).rowTiles < Word32.size :=
    Nat.lt_of_le_of_lt (Nat.le_trans (hcuts.rowTiles_le operand) (hcuts.paddedRows_le_resultBytes hbytes operand)) hsmall
  exact ⟨Word32.low_eq_self (Nat.lt_trans hlhsTile (hrowTiles .lhs)),
    Word32.low_eq_self (Nat.lt_trans hrhsTile (hrowTiles .rhs))⟩

end Elements

/-- Announcing the bytes of a run changes the last instruction only. -/
theorem announceTotal_totalBytes {totalBytes : Except Fault Nat} {bytes : Nat}
    {program found : List (Instruction ResultCommand)} (h : announceTotal totalBytes program = .ok found)
    (htotal : totalBytes = .ok bytes) (hsilent : ∀ instruction ∈ program, instruction.command.totalBytes = 0)
    {output : Nat} {instruction : Instruction ResultCommand} (hat : found[output]? = some instruction) :
    instruction.command.totalBytes = if output + 1 = found.length then bytes else 0 := by
  subst htotal
  unfold announceTotal at h
  split at h
  next =>
    cases h
    cases hat
  next last before hreverse =>
    cases h
    rw [List.reverse_eq_cons_iff.mp hreverse] at hsilent
    rw [List.reverse_cons] at hat ⊢
    rw [List.length_append, List.length_singleton]
    rcases Nat.lt_or_ge output before.reverse.length with hbefore | hlast
    · rw [List.getElem?_append_left hbefore] at hat
      rw [if_neg (by omega)]
      exact hsilent _ (List.mem_append_left _ (List.mem_of_getElem? hat))
    · rw [List.getElem?_append_right hlast, List.getElem?_singleton] at hat
      split at hat
      next hfirst =>
        cases hat
        rw [if_pos (by omega)]
      next => cases hat

section Writing

variable {layout : Layout} {schedule : Schedule} {start last : Residency} {bandPairs bytes : Nat} {steps : List Step}
  {results : List (Instruction ResultCommand)}

namespace ScheduleWritten

theorem announced (h : layout.ScheduleWritten schedule start last bandPairs steps results)
    (hbytes : layout.gemm.resultBytes = .ok bytes) {output : Nat} {instruction : Instruction ResultCommand}
    (hat : schedule.result[output]? = some instruction) :
    instruction.command.totalBytes = if output + 1 = schedule.result.length then bytes else 0 := by
  apply announceTotal_totalBytes h.result hbytes _ hat
  intro written hwritten
  obtain ⟨position, hposition⟩ := List.getElem?_of_mem hwritten
  obtain ⟨_, _, _, hcommand, _⟩ := h.results_chain.link_getElem? hposition
  rw [resultCommand_eq hcommand]

variable (h : layout.ScheduleWritten schedule start last bandPairs steps results)
  (hcuts : layout.plan.Cuts layout.geometry layout.gemm) (hbytes : layout.gemm.resultBytes = .ok bytes)
  (hsmall : bytes < Word32.size)
include h hcuts hbytes hsmall

/-- Where a schedule writes its elements. -/
theorem writesAt_iff {element : TileElement} {address : Nat} :
    schedule.WritesAt element address ↔ layout.HasElement element ∧
      address = layout.addresses.result + layout.elementNumber element * elementBytes := by
  have hlhsRows := hcuts.low_tileRows hbytes hsmall .lhs
  have hrhsRows := hcuts.low_tileRows hbytes hsmall .rhs
  simp only [TilePlan.operand] at hlhsRows hrhsRows
  have hnumber : layout.addresses.result + layout.elementNumber element * elementBytes =
      layout.addresses.result +
        (layout.nest.rhsTile element.output * layout.plan.rhs.tileRows * layout.gemm.lhs.paddedRows +
          layout.nest.lhsTile element.output * layout.plan.lhs.tileRows) * elementBytes +
        element.rhsRow * (layout.gemm.lhs.paddedRows * elementBytes) + element.lhsRow * elementBytes := by
    unfold elementNumber
    ring
  rw [hnumber]
  constructor
  · rintro ⟨instruction, hat, hrhsRow, hlhsRow, rfl⟩
    have houtput : element.output < layout.nest.outputCount := by
      rw [← h.result_length]
      exact (List.getElem?_eq_some_iff.mp hat).1
    obtain ⟨_, hcommand, _⟩ := h.result_eq hat
    rw [hcommand] at hrhsRow hlhsRow ⊢
    dsimp only at hrhsRow hlhsRow ⊢
    rw [hlhsRows] at hlhsRow
    rw [hrhsRows] at hrhsRow
    exact ⟨⟨houtput, hrhsRow, hlhsRow⟩, rfl⟩
  · rintro ⟨⟨houtput, hrhsRow, hlhsRow⟩, rfl⟩
    rw [← h.result_length] at houtput
    obtain ⟨_, hcommand, _⟩ := h.result_eq (List.getElem?_eq_getElem houtput)
    refine ⟨_, List.getElem?_eq_getElem houtput, ?_⟩
    rw [hcommand, hlhsRows, hrhsRows]
    exact ⟨hrhsRow, hlhsRow, rfl⟩

theorem mem_elementRange {element : TileElement} {byte : Nat} :
    byte ∈ schedule.elementRange element ↔ layout.HasElement element ∧
      ∃ position < elementBytes,
        byte = layout.addresses.result + (layout.elementNumber element * elementBytes + position) := by
  simp only [Schedule.elementRange, Set.mem_ofPred_eq, h.writesAt_iff hcuts hbytes hsmall, Set.mem_Ico]
  constructor
  · rintro ⟨_, ⟨helement, rfl⟩, hfrom, hto⟩
    obtain ⟨position, rfl⟩ := Nat.exists_eq_add_of_le hfrom
    exact ⟨helement, position, by omega, Nat.add_assoc _ _ _⟩
  · rintro ⟨helement, position, hposition, rfl⟩
    exact ⟨_, ⟨helement, rfl⟩, by omega, by omega⟩

/-- The element that a byte belongs to is told by its offset. -/
theorem elementAt_of_mem {element : TileElement} {byte : Nat} (hbyte : byte ∈ schedule.elementRange element) :
    layout.elementAt ((byte - layout.addresses.result) / elementBytes) = element := by
  obtain ⟨helement, position, hposition, rfl⟩ := (h.mem_elementRange hcuts hbytes hsmall).mp hbyte
  rw [Nat.add_sub_cancel_left, (div_mod_of_lt _ hposition).1]
  exact helement.elementAt_number hcuts

theorem iUnion_elementRange : ⋃ element, schedule.elementRange element =
    Set.Ico layout.addresses.result (layout.addresses.result + bytes) := by
  have hsize := Gemm.resultBytes_eq hbytes
  rw [Nat.mul_comm layout.gemm.lhs.paddedRows] at hsize
  ext byte
  rw [Set.mem_iUnion, Set.mem_Ico]
  constructor
  · rintro ⟨element, hbyte⟩
    obtain ⟨helement, position, hposition, rfl⟩ := (h.mem_elementRange hcuts hbytes hsmall).mp hbyte
    have hoffset := mul_add_lt_mul (helement.number_lt hcuts) hposition
    rw [← hsize] at hoffset
    omega
  · rintro ⟨hfrom, hto⟩
    obtain ⟨offset, rfl⟩ := Nat.exists_eq_add_of_le hfrom
    have hnumber : offset / elementBytes < layout.gemm.rhs.paddedRows * layout.gemm.lhs.paddedRows := by
      apply Nat.div_lt_of_lt_mul
      rw [Nat.mul_comm, ← hsize]
      exact Nat.lt_of_add_lt_add_left hto
    refine ⟨layout.elementAt (offset / elementBytes), (h.mem_elementRange hcuts hbytes hsmall).mpr
      ⟨hasElement_elementAt hcuts hnumber, offset % elementBytes, Nat.mod_lt _ (by decide), ?_⟩⟩
    rw [elementNumber_elementAt hcuts hnumber, Nat.div_add_mod']

end ScheduleWritten

end Writing

end Layout

/-- Rows of one width, one after the other. -/
theorem getElem?_flatMap_range {α : Type} {row : Nat → List α} {width : Nat} (hwidth : ∀ index, (row index).length = width)
    {count index position : Nat} (hindex : index < count) (hposition : position < width) :
    ((List.range count).flatMap row)[index * width + position]? = (row index)[position]? := by
  have hlength (count : Nat) : ((List.range count).flatMap row).length = count * width := by
    rw [List.length_flatMap, funext hwidth, List.map_const', List.sum_replicate_nat, List.length_range]
  induction count with
  | zero => exact absurd hindex (Nat.not_lt_zero _)
  | succ count ih =>
    rw [List.range_succ, List.flatMap_append, List.flatMap_singleton]
    rcases Nat.lt_succ_iff_lt_or_eq.mp hindex with hbefore | rfl
    · have hlt := mul_add_lt_mul hbefore hposition
      rw [← hlength count] at hlt
      rw [List.getElem?_append_left hlt]
      exact ih hbefore
    · rw [List.getElem?_append_right (by rw [hlength]; exact Nat.le_add_right _ _), hlength, Nat.add_sub_cancel_left]

namespace Session

theorem length_elements (gemm : Gemm) (raw : Array UInt8) :
    (elements gemm raw).length = gemm.rhs.rows * gemm.lhs.rows := by
  simp only [elements, List.length_flatMap, List.length_map, List.length_range, List.map_const',
    List.sum_replicate_nat]

/-- The elements of a range of memory, by their numbers. -/
theorem getElem?_elements (gemm : Gemm) (memory : Memory) {address length rhsRow lhsRow : Nat}
    (hrhsRow : rhsRow < gemm.rhs.rows) (hlhsRow : lhsRow < gemm.lhs.rows)
    (hlength : (rhsRow * gemm.lhs.paddedRows + lhsRow) * elementBytes + elementBytes ≤ length) :
    (elements gemm (memory.bytesFrom address length).toArray)[rhsRow * gemm.lhs.rows + lhsRow]? =
      some (element
        (memory.bytesFrom (address + (rhsRow * gemm.lhs.paddedRows + lhsRow) * elementBytes) elementBytes)) := by
  unfold elements
  rw [getElem?_flatMap_range (by simp) hrhsRow hlhsRow, List.getElem?_map, List.getElem?_range hlhsRow]
  simp only [Option.map_some, Array.toList_extract]
  rw [memory.extract_bytesFrom hlength]

/-- A buffer of another length is refused, and nothing is read. -/
theorem readResult_of_ne {session : Session} {length rows : Nat}
    (hrows : Word64.mul session.gemm.lhs.rows session.gemm.rhs.rows = .ok rows)
    (hblock : length * elementBytes ≤ largestBlock) (hlength : length ≠ rows) :
    session.readResult length = .ok (.error (.operandMismatch (.elements length rows)), session) := by
  have hreserve : reserve (length * elementBytes) = .ok () := if_pos hblock
  unfold readResult
  rw [hreserve, hrows]
  exact if_pos hlength

/-- A result whose buffer is live can be read. -/
theorem readResult_total {session : Session} {bytes rows : Nat} (hbytes : session.gemm.resultBytes = .ok bytes)
    (hrows : Word64.mul session.gemm.lhs.rows session.gemm.rhs.rows = .ok rows)
    (hblock : rows * elementBytes ≤ largestBlock) (hsize : bytes ≤ largestBlock)
    (hroom : session.buffers.result.address + bytes < Word64.size)
    (hlive : session.device.memory.checkCopy session.buffers.result.address bytes = .ok ()) :
    ∃ after, session.readResult rows = .ok (.ok (elements session.gemm
      (session.device.memory.bytesFrom session.buffers.result.address bytes).toArray), after) := by
  have hreserve : reserve (rows * elementBytes) = .ok () := if_pos hblock
  obtain ⟨memory, hcopy⟩ := Memory.copyOut_total hlive hroom hsize
  unfold readResult Device.copyOut
  simp only [hreserve, hrows, hbytes, hcopy, bind, Except.bind, ne_eq, not_true_eq_false, if_false]
  exact ⟨_, rfl⟩

end Session

/-- What the result instructions of a schedule write is the padded result, each element where the host reads it. -/
theorem result_delivered {layout : Layout} (hplan : TilePlan.ofGemm layout.geometry layout.gemm = .ok layout.plan)
    {bytes : Nat} (hbytes : layout.gemm.resultBytes = .ok bytes) (hsmall : bytes < Word32.size)
    (hroom : layout.addresses.result + bytes < Word64.size) {start last : Residency} {schedule : Schedule}
    (hschedule : layout.schedule start = .ok (schedule, last)) : layout.Delivers schedule bytes := by
  have hcuts := TilePlan.ofGemm_cuts hplan
  obtain ⟨bandPairs, steps, results, hwritten⟩ := Layout.schedule_written hschedule
  have hsize := Gemm.resultBytes_eq hbytes
  constructor
  case disjoint =>
    intro first _ second _ hne
    apply Set.disjoint_left.mpr
    intro byte hfirst hsecond
    apply hne
    rw [← hwritten.elementAt_of_mem hcuts hbytes hsmall hfirst, hwritten.elementAt_of_mem hcuts hbytes hsmall hsecond]
  case cover => exact hwritten.iUnion_elementRange hcuts hbytes hsmall
  case written =>
    intro rhsRow hrhsRow lhsRow hlhsRow
    have hnumber := mul_add_lt_mul hrhsRow hlhsRow
    have helement := Layout.hasElement_elementAt hcuts hnumber
    have hself := Layout.elementNumber_elementAt hcuts hnumber
    have houtput := helement.output
    rw [← hwritten.result_length] at houtput
    refine ⟨_, _, (hwritten.writesAt_iff hcuts hbytes hsmall).mpr ⟨helement, by rw [hself]; rfl⟩, ?_,
      List.getElem?_eq_getElem houtput, ?_⟩
    · intro other hother
      obtain ⟨hotherElement, haddress⟩ := (hwritten.writesAt_iff hcuts hbytes hsmall).mp hother
      have hsame := Nat.eq_of_mul_eq_mul_right (by decide) (Nat.add_left_cancel haddress)
      rw [hsame]
      exact (hotherElement.elementAt_number hcuts).symm
    · obtain ⟨_, _, htoken⟩ := hwritten.result_eq (List.getElem?_eq_getElem houtput)
      obtain ⟨hlhsLow, hrhsLow⟩ := Layout.low_rowTile hcuts hbytes hsmall helement.output
      obtain ⟨hlhsTile, hrhsTile⟩ := Layout.rowTiles_elementAt hcuts hrhsRow hlhsRow
      rw [htoken, hlhsLow, hrhsLow, hlhsTile, hrhsTile]
  case read =>
    intro session hgemm haddress hlive
    have hlhsRows : layout.gemm.lhs.rows ≤ layout.gemm.lhs.paddedRows := (hcuts.shape .lhs).rows_le
    have hrhsRows : layout.gemm.rhs.rows ≤ layout.gemm.rhs.paddedRows := (hcuts.shape .rhs).rows_le
    have hrows := hcuts.rows_mul_le_resultBytes hbytes
    have hblock : bytes ≤ largestBlock := Nat.le_of_lt (Nat.lt_trans hsmall (by decide))
    have hproduct : Word64.mul session.gemm.lhs.rows session.gemm.rhs.rows =
        .ok (layout.gemm.lhs.rows * layout.gemm.rhs.rows) := by
      rw [hgemm, Word64.mul_eq_ok_iff]
      refine ⟨Nat.lt_of_le_of_lt ?_ (Nat.lt_trans hsmall (by decide)), rfl⟩
      exact Nat.le_trans (Nat.le_mul_of_pos_right _ (by decide)) hrows
    rw [← hgemm] at hbytes
    rw [← haddress] at hlive hroom
    obtain ⟨after, hread⟩ :=
      Session.readResult_total hbytes hproduct (Nat.le_trans hrows hblock) hblock hroom hlive
    refine ⟨_, after, hread, ?_, ?_⟩
    · rw [Session.length_elements, hgemm]
    · intro rhsRow hrhsRow lhsRow hlhsRow
      have hnumber := mul_add_lt_mul (Nat.lt_of_lt_of_le hrhsRow hrhsRows) (Nat.lt_of_lt_of_le hlhsRow hlhsRows)
      rw [hgemm, haddress]
      apply Session.getElem?_elements layout.gemm _ hrhsRow hlhsRow
      rw [hsize, ← Nat.succ_mul, Nat.mul_comm layout.gemm.lhs.paddedRows]
      exact Nat.mul_le_mul_right _ hnumber
  case writeBytes => exact hwritten.writeBytes_eq_resultBytes hcuts hbytes hsmall
  case announced => exact fun output instruction => hwritten.announced hbytes

/-- A session for the tiled product on a device with its array. -/
def tiledSession : Option Session :=
  (Session.attach (.ofGeometry tiledLayout.geometry) tiledLayout.gemm ⟨none, false⟩).toOption.bind (·.session?)

/-- The session reads the fifteen elements of the product that its six output tiles write. -/
theorem result_delivered_tiled :
    ∃ schedule last session product after, tiledLayout.schedule .fresh = .ok (schedule, last) ∧
      tiledSession = some session ∧ session.readResult 15 = .ok (.ok product, after) ∧ product.length = 15 ∧
      schedule.result.length = 6 ∧ tiledLayout.Delivers schedule 96 := by
  have hwrites : (tiledLayout.schedule .fresh).toOption.map (·.1.result.length) = some 6 := by decide +kernel
  have hlive : tiledSession.map (fun session => (session.gemm, session.buffers.result.address,
      (session.device.memory.checkCopy tiledLayout.addresses.result 96).toOption)) =
      some (tiledLayout.gemm, tiledLayout.addresses.result, some ()) := by
    decide +kernel
  obtain ⟨⟨schedule, last⟩, hschedule, hlength⟩ := Option.map_eq_some_iff.mp hwrites
  have hschedule := toOption_eq_some_iff.mp hschedule
  obtain ⟨session, hsession, hfields⟩ := Option.map_eq_some_iff.mp hlive
  simp only [Prod.mk.injEq] at hfields
  obtain ⟨hgemm, haddress, hcheck⟩ := hfields
  have hdelivers : tiledLayout.Delivers schedule 96 :=
    result_delivered tiledLayout_plan (toOption_eq_some_iff.mp (by decide +kernel)) (by decide) (by decide) hschedule
  obtain ⟨product, after, hread, hcount, _⟩ :=
    hdelivers.read session hgemm haddress (toOption_eq_some_iff.mp hcheck)
  exact ⟨schedule, last, session, product, after, hschedule, hsession, hread, hcount, hlength, hdelivers⟩

end BitSerial
