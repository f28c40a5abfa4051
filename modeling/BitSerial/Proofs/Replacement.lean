import BitSerial.Proofs.Admitted
import BitSerial.Proofs.Attachment
import BitSerial.Proofs.Replay

/-! # Replacing an operand

An operand is replaced as a whole or not at all. Its words take the place of the old ones in its buffer, and nothing
else in memory changes. The tracker forgets the tiles of that operand and no others, so the next schedule transfers
the operand as if nothing were on chip, and the other operand as if nothing had been replaced.
-/

namespace BitSerial

namespace Packed

theorem length_littleEndian (word : Nat) : (littleEndian word).length = wordBytes := by
  unfold littleEndian
  rw [List.length_map, List.length_range]

/-- The packed words follow each other in memory, the lowest byte of each first. -/
theorem getElem?_flatMap_littleEndian {words : List Nat} {index word position : Nat} (hword : words[index]? = some word)
    (hposition : position < wordBytes) :
    (words.flatMap littleEndian)[index * wordBytes + position]? = some (UInt8.ofNat (word >>> (8 * position))) := by
  induction words generalizing index with
  | nil => cases hword
  | cons first rest ih =>
    rw [List.flatMap_cons]
    cases index with
    | zero =>
      obtain rfl := Option.some.inj hword
      rw [Nat.zero_mul, Nat.zero_add, List.getElem?_append_left (length_littleEndian first ▸ hposition)]
      unfold littleEndian
      rw [List.getElem?_map, List.getElem?_range hposition, Option.map_some]
    | succ index =>
      have hskip : (index + 1) * wordBytes + position = (littleEndian first).length + (index * wordBytes + position) := by
        rw [length_littleEndian, Nat.succ_mul]
        omega
      rw [hskip, List.getElem?_append_right (Nat.le_add_right _ _), Nat.add_sub_cancel_left]
      exact ih hword

end Packed

namespace Session

/-- An operand that can stand in for the attached one. -/
structure Matches (session : Session) (operand : Operand) (packed : Packed) : Prop where
  shape : packed.shape = session.gemm.operand operand
  words : (session.gemm.operand operand).words = .ok packed.words.length

/-- What replacing an operand makes of a session. -/
structure Replaced (session : Session) (operand : Operand) (packed : Packed) (after : Session) : Prop where
  /-- The words fill the buffer. -/
  bytes : (session.gemm.operand operand).bytes = .ok (packed.words.length * wordBytes) ∧
    (session.buffers.operand operand).bytes = packed.words.length * wordBytes
  written : ∀ index word, packed.words[index]? = some word → ∀ position < wordBytes,
    after.device.memory.byte ((session.buffers.operand operand).address + (index * wordBytes + position)) =
      UInt8.ofNat (word >>> (8 * position))
  outside : ∀ address, address < (session.buffers.operand operand).address ∨
    (session.buffers.operand operand).address + packed.words.length * wordBytes ≤ address →
      after.device.memory.byte address = session.device.memory.byte address
  forgotten : after.residency.tiles.get operand = .both none
  known : ∀ other ≠ operand, after.residency.tiles.get other = session.residency.tiles.get other
  /-- Nothing changes but memory and the tracker, which goes on counting. -/
  rest : ∃ memory tiles, after = { session with
    device := { session.device with memory }
    residency := { session.residency with tiles } }

/-- What replacing an operand makes of the next schedule. -/
structure Refetches (session : Session) (operand : Operand) (after : Session) : Prop where
  /-- There is such a schedule, and there are those to compare it with, as long as the tracker can count tiles. -/
  exist : session.layout.Counts session.residency →
    (∃ next, after.nextSchedule = .ok next) ∧ (∃ cold, session.layout.schedule .fresh = .ok cold) ∧
      ∃ kept, session.nextSchedule = .ok kept
  replaced : ∀ next last unknown cold coldLast, after.nextSchedule = .ok (next, last) →
    unknown.tiles = .both (.both none) → session.layout.schedule unknown = .ok (cold, coldLast) →
    next.fetch.map (·.command.blocks.get operand) = cold.fetch.map (·.command.blocks.get operand)
  others : ∀ next last kept keptLast, after.nextSchedule = .ok (next, last) →
    session.nextSchedule = .ok (kept, keptLast) → ∀ other ≠ operand,
    next.fetch.map (·.command.blocks.get other) = kept.fetch.map (·.command.blocks.get other)

end Session

namespace Watch.Sound

variable {device first : Device} {watch : Watch} {operand : Operand} {packed : Packed}

/-- The words of an operand are those that its buffer has room for. -/
theorem words (h : watch.Sound device) (operand : Operand) :
    ∃ needed, (watch.session.gemm.operand operand).words = .ok needed ∧
      (watch.session.buffers.operand operand).bytes = needed * wordBytes := by
  have hbytes := h.placed.operand operand
  simp only [OperandShape.bytes, bind_eq_ok_iff, Word64.mul_eq_ok_iff] at hbytes
  obtain ⟨needed, hneeded, -, hroom⟩ := hbytes
  exact ⟨needed, hneeded, hroom⟩

theorem bytes_of_matches (h : watch.Sound device) (hmatches : watch.session.Matches operand packed) :
    (watch.session.buffers.operand operand).bytes = packed.words.length * wordBytes := by
  obtain ⟨needed, hneeded, hbytes⟩ := h.words operand
  rwa [← Except.ok.inj (hmatches.words.symm.trans hneeded)] at hbytes

theorem setOperand_refused (h : watch.Sound device) (hloose : ¬ watch.session.Matches operand packed) :
    ∃ defect, watch.session.setOperand operand packed = .ok (.error (.operandMismatch defect), watch.session) := by
  obtain ⟨needed, hneeded, -⟩ := h.words operand
  unfold Session.setOperand
  by_cases hshape : packed.shape = watch.session.gemm.operand operand
  · have hwords : packed.words.length ≠ needed := fun hlength => hloose ⟨hshape, hlength ▸ hneeded⟩
    refine ⟨.words operand packed.words.length needed, ?_⟩
    dsimp only
    rw [if_neg (not_not_intro hshape), hneeded]
    exact if_pos hwords
  · exact ⟨_, if_pos hshape⟩

theorem setOperand_total (h : watch.Sound device) (hbalanced : watch.Balanced first)
    (hmatches : watch.session.Matches operand packed) :
    ∃ memory, watch.session.device.memory.write (watch.session.buffers.operand operand).address packed.bytes =
        .ok memory ∧
      watch.session.setOperand operand packed = .ok (.ok (), { watch.session with
        device := { watch.session.device with memory }
        residency := watch.session.residency.invalidate operand }) := by
  have hlength : packed.bytes.length = (watch.session.buffers.operand operand).bytes :=
    packed.length_bytes.trans (h.bytes_of_matches hmatches).symm
  have hlive := hbalanced.live_operand h.placed operand (Nat.le_of_eq hlength)
  have hend := h.placed.operand_end operand
  have hroom := h.placed.result_end
  obtain ⟨memory, hwrite, hcopy⟩ := Memory.copyIn_total hlive (by omega)
  refine ⟨memory, hwrite, ?_⟩
  unfold Session.setOperand Device.copyIn
  dsimp only
  rw [if_neg (not_not_intro hmatches.shape), hmatches.words, hcopy]
  exact if_neg (not_not_intro rfl)

theorem replaced (h : watch.Sound device) (hmatches : watch.session.Matches operand packed) {memory : Memory}
    (hwrite : watch.session.device.memory.write (watch.session.buffers.operand operand).address packed.bytes =
      .ok memory) :
    watch.session.Replaced operand packed { watch.session with
      device := { watch.session.device with memory }
      residency := watch.session.residency.invalidate operand } := by
  have hbytes := h.bytes_of_matches hmatches
  constructor
  case bytes => exact ⟨hbytes ▸ h.placed.operand operand, hbytes⟩
  case written =>
    intro index word hword position hposition
    have hbyte : packed.bytes[index * wordBytes + position]? = some _ :=
      Packed.getElem?_flatMap_littleEndian hword hposition
    rw [Memory.byte_write hwrite, if_pos (Nat.le_add_right _ _), Nat.add_sub_cancel_left, hbyte, Option.getD_some]
  case outside =>
    intro address houtside
    rw [← packed.length_bytes] at houtside
    exact Memory.byte_write_of_outside hwrite houtside
  case forgotten => exact PerOperand.get_set_self _ _ _
  case known => exact fun other hother => PerOperand.get_set_of_ne _ _ hother
  case rest => exact ⟨memory, _, rfl⟩

theorem refetches (h : watch.Sound device) (hused : device.Used) {after : Session}
    (hreplaced : watch.session.Replaced operand packed after) : watch.session.Refetches operand after := by
  have hforgotten := hreplaced.forgotten
  have hknown := hreplaced.known
  obtain ⟨memory, tiles, rfl⟩ := hreplaced.rest
  constructor
  case exist =>
    intro hcounts
    have htotal {start : Residency} (hroom : watch.session.layout.Counts start) :
        ∃ written, watch.session.layout.schedule start = .ok written := by
      obtain ⟨written, hwritten, -⟩ := (h.schedule_settles hused start).total (not_not_intro hroom)
      exact ⟨written, hwritten⟩
    refine ⟨htotal ⟨hcounts.hits, hcounts.misses⟩, htotal ⟨?_, ?_⟩, htotal hcounts⟩
    · exact Nat.lt_of_le_of_lt (Nat.add_le_add_right (Nat.zero_le _) _) hcounts.hits
    · exact Nat.lt_of_le_of_lt (Nat.add_le_add_right (Nat.zero_le _) _) hcounts.misses
  case replaced =>
    intro next last unknown cold coldLast hnext hunknown hcold
    refine Layout.schedule_blocks_unique (hforgotten.trans ?_) hnext hcold
    rw [hunknown, PerOperand.get_both]
  case others =>
    intro next last kept keptLast hnext hkept other hother
    exact Layout.schedule_blocks_unique (hknown other hother) hnext hkept

end Watch.Sound

/-- Whatever was done with a session, replacing an operand by one of its shape and length succeeds, changes the bytes of
its buffer and what is known of its tiles, and has it fetched again; any other operand is turned down and changes
nothing. -/
theorem setOperand_replaces {device : Device} {watch : Watch} (hused : device.Used) (hhistory : History device watch)
    (operand : Operand) (packed : Packed) :
    (watch.session.Matches operand packed →
      ∃ after, watch.session.setOperand operand packed = .ok (.ok (), after) ∧
        watch.session.Replaced operand packed after ∧ watch.session.Refetches operand after) ∧
    (¬ watch.session.Matches operand packed →
      ∃ defect, watch.session.setOperand operand packed =
        .ok (.error (.operandMismatch defect), watch.session)) := by
  have hsound := hhistory.sound
  refine ⟨fun hmatches => ?_, hsound.setOperand_refused⟩
  obtain ⟨first, hbalanced⟩ := hhistory.exists_balanced hused
  obtain ⟨memory, hwrite, hset⟩ := hsound.setOperand_total hbalanced hmatches
  have hreplaced := hsound.replaced hmatches hwrite
  exact ⟨_, hset, hreplaced, hsound.refetches hused hreplaced⟩

/-- After its first run, the small product takes a new left operand of 192 words, and refuses one of a word less. -/
theorem setOperand_replaces_small :
    ∃ session report after replaced defect, smallSession = some session ∧
      (Watch.begin session).run 1000 (.still false) = .ok (.finished report, after) ∧
      after.session.setOperand .lhs ⟨smallGemm.lhs, List.range 192⟩ = .ok (.ok (), replaced) ∧
      after.session.Replaced .lhs ⟨smallGemm.lhs, List.range 192⟩ replaced ∧ after.session.Refetches .lhs replaced ∧
      after.session.setOperand .lhs ⟨smallGemm.lhs, List.range 191⟩ =
        .ok (.error (.operandMismatch defect), after.session) := by
  obtain ⟨session, report, after, hsession, hrun⟩ := smallSession_runs
  have hhistory : History (.ofGeometry .reference) after := .run (.attach (smallSession_attached hsession)) hrun nofun
  have hreplaces := setOperand_replaces (.made .reference expectedSignature defaultClock) hhistory .lhs
  have hwords : smallGemm.lhs.words = .ok 192 := toOption_eq_some_iff.mp (by decide +kernel)
  have hgemm := (Session.SameProduct.run hrun).gemm.trans (smallSession_gemm hsession)
  have hattached : after.session.gemm.operand .lhs = smallGemm.lhs := congrArg (·.operand .lhs) hgemm
  obtain ⟨replaced, hset, hreplaced, hrefetches⟩ := (hreplaces ⟨smallGemm.lhs, List.range 192⟩).1
    ⟨hattached.symm, hattached ▸ hwords⟩
  obtain ⟨defect, hrefused⟩ := (hreplaces ⟨smallGemm.lhs, List.range 191⟩).2 fun hmatches => by
    have hlength := hmatches.words
    rw [hattached, hwords, List.length_range] at hlength
    cases hlength
  exact ⟨session, report, after, replaced, defect, hsession, hrun, hset, hreplaced, hrefetches, hrefused⟩

end BitSerial
