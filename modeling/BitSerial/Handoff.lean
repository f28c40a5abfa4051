import BitSerial.Command

/-! # Hand-offs between stages

The stages share two operand regions and two result regions. Counters say how many of them are free and how many wait
for the next stage; a region that a stage is working on is in neither count. A stage takes the regions of its command
before it works and hands them on when it is done.
-/

namespace BitSerial

/-- The regions that are not being worked on. -/
structure Handoff where
  /-- Operand regions that the fetch stage may fill. -/
  operandFree : Nat
  /-- Operand regions that wait for the execute stage. -/
  operandFull : Nat
  /-- Result regions that the execute stage may accumulate into. -/
  resultFree : Nat
  /-- Result regions that wait for the result stage. -/
  resultFull : Nat
  deriving DecidableEq, Repr

namespace Handoff

/-- All regions free. -/
def idle : Handoff := ⟨operandSlots, 0, resultSlots, 0⟩

/-- Takes the regions that a command needs, all of them or none. -/
def acquire? (handoff : Handoff) : Command → Option Handoff
  | .fetch _ =>
    if handoff.operandFree = 0 then none
    else some { handoff with operandFree := handoff.operandFree - 1 }
  | .execute command =>
    if handoff.operandFull = 0 ∨ command.clear ∧ handoff.resultFree = 0 then none
    else some { handoff with
      operandFull := handoff.operandFull - 1
      resultFree := if command.clear then handoff.resultFree - 1 else handoff.resultFree }
  | .result _ =>
    if handoff.resultFull = 0 then none
    else some { handoff with resultFull := handoff.resultFull - 1 }

/-- Hands the regions of a finished command to the next stage. -/
def release (handoff : Handoff) : Command → Except Fault Handoff
  | .fetch _ => do
    return { handoff with operandFull := ← Word64.add handoff.operandFull 1 }
  | .execute command => do
    let handoff := { handoff with operandFree := ← Word64.add handoff.operandFree 1 }
    if command.commit then
      return { handoff with resultFull := ← Word64.add handoff.resultFull 1 }
    else
      return handoff
  | .result _ => do
    return { handoff with resultFree := ← Word64.add handoff.resultFree 1 }

end Handoff

end BitSerial
