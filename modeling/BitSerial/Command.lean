import BitSerial.Geometry
import BitSerial.Stage
import BitSerial.Tile

/-! # Commands and tokens

A command holds the parameters of one piece of work of a stage. The token beside it names the tile and says how many
iterations the stage performs. A stage pairs tokens and commands by position: its n-th token belongs to its n-th
command. The fields of commands and tokens are 32-bit words, addresses and address distances excepted.
-/

namespace BitSerial

/-- A strided transfer from memory into the on-chip memories of an operand.

Block after block is one row of a band. Consecutive rows go to consecutive memories, `memoryCount` of them starting at
`firstMemory` and then round again, and each round continues after the words of the one before, starting at
`firstWord`. -/
structure FetchBlock where
  address : Nat
  blockBytes : Nat
  /-- The distance of consecutive blocks in memory. -/
  strideBytes : Nat
  blockCount : Nat
  firstWord : Nat
  firstMemory : Nat
  memoryCount : Nat
  deriving DecidableEq, Repr

/-- The bytes that a transfer moves. Two 32-bit factors cannot overflow. -/
def FetchBlock.bytes (block : FetchBlock) : Nat := block.blockBytes * block.blockCount

/-- The work of the fetch stage in one step. -/
structure FetchCommand where
  /-- The operand slot that is filled. -/
  slot : Nat
  /-- The transfer of each operand. There is none if the tile is already in the slot. -/
  blocks : PerOperand (Option FetchBlock)
  /-- On-chip words that one row of a band takes. -/
  segmentWords : Nat
  deriving DecidableEq, Repr

namespace FetchCommand

/-- The transfers of a step, the left operand first. -/
def transferList (command : FetchCommand) : List FetchBlock :=
  command.blocks.lhs.toList ++ command.blocks.rhs.toList

/-- The number of transfers of a step. -/
def transfers (command : FetchCommand) : Nat := command.transferList.length

/-- The bytes that a step reads from memory. -/
def bytes (command : FetchCommand) : Except Fault Nat :=
  Word64.add (command.blocks.lhs.elim 0 FetchBlock.bytes) (command.blocks.rhs.elim 0 FetchBlock.bytes)

end FetchCommand

/-- The work of the execute stage in one step. -/
structure ExecuteCommand where
  /-- The operand slot that is read. -/
  operandSlot : Nat
  /-- The result slot that is accumulated into. -/
  resultSlot : Nat
  /-- The first word of the slot in each left memory. -/
  lhsWord : Nat
  /-- The first word of the slot in each right memory. -/
  rhsWord : Nat
  /-- Stripes accumulated for each pair of bands. -/
  stripes : Nat
  /-- Bands of the left tile. -/
  lhsBands : Nat
  /-- Bands of the right tile. -/
  rhsBands : Nat
  /-- The left shift of partial products. -/
  shift : Nat
  /-- Whether partial products are subtracted. -/
  negate : Bool
  /-- Whether the accumulators start from zero. -/
  clear : Bool
  /-- Whether the result slot goes to the result stage after this step. -/
  commit : Bool
  deriving DecidableEq, Repr

/-- The work of the result stage on one output tile. -/
structure ResultCommand where
  /-- The result slot that is written out. -/
  slot : Nat
  /-- The address of the first element of the tile. -/
  address : Nat
  /-- The distance in memory of consecutive right rows. -/
  strideBytes : Nat
  lhsRows : Nat
  rhsRows : Nat
  /-- All bytes of the result on the last command of a run, and zero before. -/
  totalBytes : Nat
  deriving DecidableEq, Repr

namespace ResultCommand

/-- The bytes of one row of a tile. -/
def rowBytes (command : ResultCommand) : Nat := command.lhsRows * elementBytes

/-- The bytes that an output tile writes to memory. -/
def bytes (command : ResultCommand) : Except Fault Nat :=
  Word64.mul (command.lhsRows * command.rhsRows) elementBytes

end ResultCommand

/-- A command of any stage. -/
inductive Command where
  | fetch (command : FetchCommand)
  | execute (command : ExecuteCommand)
  | result (command : ResultCommand)
  deriving DecidableEq, Repr

/-- The stage that a command is for. -/
def Command.stage : Command → Stage
  | .fetch _ => .fetch
  | .execute _ => .execute
  | .result _ => .result

/-- The tile of a command and the iterations that the stage performs.

The iterations are the transfers for the fetch stage, none if it only hands on a slot, and the pairs of bands for the
two other stages. -/
structure Token where
  tile : TileIndex
  repeats : Nat
  deriving DecidableEq, Repr

/-- A command with the token that belongs to it. -/
structure Instruction (κ : Type) where
  command : κ
  token : Token
  deriving DecidableEq, Repr

/-- Changes the command of an instruction. -/
def Instruction.map {κ μ : Type} (f : κ → μ) (instruction : Instruction κ) : Instruction μ :=
  ⟨f instruction.command, instruction.token⟩

end BitSerial
