import BitSerial.Settings
import BitSerial.Text.Quoted

/-! # Command line

Runs a one-bit product of given dimensions twice on the emulated device and reports on both runs. What is printed
before something goes wrong stays printed.
-/

namespace BitSerial.CommandLine

/-- How the program ends: its exit code and what it wrote. -/
structure Outcome where
  code : Nat
  output : String
  /-- The error text. There is none of its own after a fault. -/
  errors : Option String
  deriving DecidableEq, Repr

/-- What stops the program. -/
inductive Stop where
  | fault (cause : Fault)
  /-- An error, and the causes behind it, the nearest first. -/
  | error (text : String) (causes : List String)

/-- Stops the program for a refusal. -/
def Stop.ofRefusal (reason : Refusal) : Stop :=
  match reason.chain with
  | [] => .error "" []
  | text :: causes => .error text causes

/-- Stops the program for a refusal that is told as the cause of an error. -/
def Stop.because (text : String) (reason : Refusal) : Stop := .error text reason.chain

/-- The lines on the causes of an error. Several are numbered. -/
def causeLines : List String → List String
  | [] => []
  | [cause] => ["", "Caused by:", "    " ++ cause]
  | causes => ["", "Caused by:"] ++ causes.zipIdx.map fun (cause, number) => s!"    {number}: {cause}"

/-- The text of what stops the program. A fault has none. -/
def Stop.text? : Stop → Option String
  | .fault _ => none
  | .error text causes => some (String.join ((s!"Error: {text}" :: causeLines causes).map (· ++ "\n")))

/-- The exit code of what stops the program. -/
def Stop.code : Stop → Nat
  | .fault _ => 101
  | .error _ _ => 1

/-- Part of the program: what it prints, and how it goes on. -/
abbrev Program (α : Type) := ExceptT Stop (StateM String) α

/-- Prints a text. -/
def print (text : String) : Program Unit := modify (· ++ text)

/-- Lets a fault stop the program. -/
def check {α : Type} (computation : Except Fault α) : Program α :=
  match computation with
  | .ok value => pure value
  | .error cause => throw (.fault cause)

/-- The outcome of a program. -/
def outcome (program : Program Unit) : Outcome :=
  match program.run.run "" with
  | (.ok (), output) => ⟨0, output, some ""⟩
  | (.error stop, output) => ⟨stop.code, output, stop.text?⟩

/-- The text on the use of the program. -/
def usage (path : String) : String :=
  "Usage: bismo-host [LHS_ROWS [DEPTH [RHS_ROWS]]]\n\n" ++
  "Runs a 1-bit LHS_ROWS x DEPTH x RHS_ROWS GEMM twice (default 64 256 64).\n" ++
  s!"Configuration: {path}\n"

/-- Reads the dimensions that are given, the first three arguments at most. -/
def dimensions : (arguments : List String) → (defaults : List Nat) → Program (List Nat)
  | argument :: arguments, _ :: defaults =>
    match Decimal.whole Word64.size argument with
    | .ok dimension => do return dimension :: (← dimensions arguments defaults)
    | .error defect => throw (.error s!"invalid dimension {Text.quoted argument}" [defect.message])
  | _, defaults => pure defaults

/-- The most times that a run of the program asks the device whether it is done. -/
def patience : Nat := 0x4000000000000000

/-- Runs the product once more and prints a report. -/
def runOnce (number : Nat) (session : Session) : Program Session := do
  let (ended, session) ← check (session.run patience (.still false))
  match ended with
  | .finished report =>
    print s!"Run {number}\n{← check report.render}\n\n"
    return session
  | .refused reason => throw (.because s!"run {number} failed" reason)
  | .unfinished => throw (.error s!"run {number} is not finished" [])

/-- Replaces an operand by one that is all zero. -/
def clearOperand (operand : Operand) (session : Session) : Program Session := do
  match ← check (session.clearOperand operand (session.gemm.operand operand)) with
  | (.ok (), session) => return session
  | (.error reason, _) => throw (.ofRefusal reason)

/-- Runs the product of given dimensions. -/
def runProduct (settings : Settings) (lhsRows depth rhsRows : Nat) : Program Unit := do
  let geometry := settings.geometry
  print s!"Hardware ===============================================\n{geometry.describe}\n\n"
  let gemm ← check (Gemm.forGeometry geometry ⟨lhsRows, depth, rhsRows, 1, 1, false, false⟩)
  match ← check (Session.attach settings.device gemm settings.options) with
  | .failed reason _ => throw (.because "failed to attach to accelerator" reason)
  | .attached session =>
    let session ← clearOperand .lhs session
    let session ← clearOperand .rhs session
    let session ← runOnce 1 session
    let session ← runOnce 2 session
    let length ← check (Word64.mul lhsRows rhsRows)
    match ← check (session.readResult length) with
    | (.ok elements, _) => print s!"Result: {elements.length} elements read back\n"
    | (.error reason, _) => throw (.ofRefusal reason)

/-- The program. The path is that of the file of the user. -/
def program (arguments : List String) (path : String) (settings : Settings) : Program Unit := do
  if arguments.contains "--help" || arguments.contains "-h" then
    print (usage path)
  else if arguments.contains "--sample-config" then
    print Settings.sample
  else
    match ← dimensions arguments [64, 256, 64] with
    | [lhsRows, depth, rhsRows] => runProduct settings lhsRows depth rhsRows
    | _ => pure ()

/-- Runs the program. -/
def run (arguments : List String) (path : String) (settings : Settings) : Outcome :=
  outcome (program arguments path settings)

end BitSerial.CommandLine
