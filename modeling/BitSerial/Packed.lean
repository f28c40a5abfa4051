import BitSerial.Refusal

/-! # Packed operands

An operand as the host holds it: a shape, and its words in the order of bit planes and rows. Packing itself happens
elsewhere.
-/

namespace BitSerial

/-- A shape together with packed words. Only `Packed.ofWords` checks that they belong together. -/
structure Packed where
  shape : OperandShape
  words : List Nat
  deriving DecidableEq, Repr

namespace Packed

/-- The number of words of an operand that is all zero, if a block of host memory can hold them. -/
def zeroCount (shape : OperandShape) : Except Fault Nat := do
  let count ← shape.words
  reserve (count * wordBytes)
  return count

theorem zeroCount_eq_ok_iff {shape : OperandShape} {count : Nat} :
    zeroCount shape = .ok count ↔ shape.words = .ok count ∧ count * wordBytes ≤ largestBlock := by
  unfold zeroCount reserve
  cases shape.words with
  | error cause => exact ⟨nofun, fun h => nomatch h.1⟩
  | ok needed =>
    by_cases hroom : needed * wordBytes ≤ largestBlock
    · simp only [bind, Except.bind, pure, Except.pure, if_pos hroom, Except.ok.injEq]
      exact ⟨fun h => ⟨h, h ▸ hroom⟩, fun h => h.1⟩
    · simp only [bind, Except.bind, if_neg hroom, Except.ok.injEq]
      exact ⟨nofun, fun h => absurd (h.1 ▸ h.2) hroom⟩

/-- An operand that is all zero. -/
def zeroed (shape : OperandShape) : Except Fault Packed := do
  let count ← zeroCount shape
  return { shape, words := List.replicate count 0 }

/-- Takes words as an operand if there are as many as the shape needs. -/
def ofWords (shape : OperandShape) (words : List Nat) : Except Failure Packed := do
  let needed ← shape.words
  if words.length = needed then
    return { shape, words }
  else
    Failure.shape (.wordCount words.length needed)

/-- The bytes of a word, lowest first. -/
def littleEndian (word : Nat) : List UInt8 :=
  (List.range wordBytes).map fun position => UInt8.ofNat (word >>> (8 * position))

/-- The bytes of the packed words in memory order. -/
def bytes (packed : Packed) : List UInt8 := packed.words.flatMap littleEndian

/-- Zero words are zero bytes. -/
theorem bytes_replicate (shape : OperandShape) (count : Nat) :
    (Packed.mk shape (List.replicate count 0)).bytes = List.replicate (count * wordBytes) 0 := by
  have hword : littleEndian 0 = List.replicate wordBytes 0 := by decide
  unfold bytes
  induction count with
  | zero => simp
  | succ count ih =>
    rw [List.replicate_succ, List.flatMap_cons, ih, hword, List.replicate_append_replicate, Nat.succ_mul,
      Nat.add_comm]

end Packed

end BitSerial
