import BitSerial.Fault
import BitSerial.Operand

/-! # Residency of tiles

For each operand and each of its two buffer slots, the tile that was last brought there. A tile is named by its
memory address, so a tile fetched once from an unchanged buffer is recognised whenever the same slot comes round
again. The tracker only remembers what was asked; it does not see the buffers themselves.
-/

namespace BitSerial

/-- One value for each of the two slots of a double buffer. -/
structure SlotPair (α : Type) where
  first : α
  second : α
  deriving DecidableEq, Repr

namespace SlotPair

variable {α : Type}

/-- The value of a slot. There is no slot after the second. -/
def get (pair : SlotPair α) : Nat → Except Fault α
  | 0 => .ok pair.first
  | 1 => .ok pair.second
  | _ => .error .outOfRange

/-- Replaces the value of a slot. -/
def set (pair : SlotPair α) (value : α) : Nat → Except Fault (SlotPair α)
  | 0 => .ok { pair with first := value }
  | 1 => .ok { pair with second := value }
  | _ => .error .outOfRange

/-- The same value for both slots. -/
def both (value : α) : SlotPair α := ⟨value, value⟩

end SlotPair

/-- The identity of a tile, if it has one. -/
abbrev TileIdentity := Option Nat

/-- A tile is identified by its address. The largest address of all identifies nothing. -/
def TileIdentity.ofAddress (address : Nat) : TileIdentity :=
  if address = Word64.size - 1 then none else some address

/-- The address that stands for an identity. -/
def TileIdentity.address : TileIdentity → Nat
  | none => Word64.size - 1
  | some address => address

/-- The tiles known to be in the operand slots, and how often a tile was found there. A schedule can be built from any
tracker, whatever it has counted, so one more answer than a word can count is a fault. -/
structure Residency where
  /-- The tile of each slot. Nothing is known about a slot without one. -/
  tiles : PerOperand (SlotPair TileIdentity)
  hits : Nat
  misses : Nat
  deriving DecidableEq, Repr

namespace Residency

/-- Nothing known and nothing counted. -/
def fresh : Residency where
  tiles := .both (.both none)
  hits := 0
  misses := 0

/-- The tile known to be in a slot. -/
def resident (residency : Residency) (operand : Operand) (slot : Nat) : Except Fault TileIdentity :=
  (residency.tiles.get operand).get slot

/-- Whether a tile is known to be in a slot. A tile without identity never is, whatever the slot. -/
def isResident (residency : Residency) (operand : Operand) (slot : Nat) (tile : TileIdentity) :
    Except Fault Bool :=
  match tile with
  | none => .ok false
  | some address => do
    let known ← residency.resident operand slot
    return known = some address

/-- Asks for a tile in a slot and records it there. The answer is whether it already was there; if not, the asker has
to fetch it. -/
def access (residency : Residency) (operand : Operand) (slot : Nat) (tile : TileIdentity) :
    Except Fault (Bool × Residency) := do
  if ← residency.isResident operand slot tile then
    let hits ← Word64.add residency.hits 1
    return (true, { residency with hits })
  else
    let misses ← Word64.add residency.misses 1
    let slots ← (residency.tiles.get operand).set tile slot
    return (false, { residency with tiles := residency.tiles.set slots operand, misses })

/-- Forgets the tiles of one operand. The counts stay. -/
def invalidate (residency : Residency) (operand : Operand) : Residency :=
  { residency with tiles := residency.tiles.set (.both none) operand }

/-- Forgets the tiles of both operands. -/
def invalidateAll (residency : Residency) : Residency :=
  (residency.invalidate .lhs).invalidate .rhs

end Residency

end BitSerial
