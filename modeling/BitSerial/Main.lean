import BitSerial.CommandLine

/-! # Main program

Gathers the arguments, files and environment variables of the command line, and prints what it answers.
-/

namespace BitSerial

/-- The text of a file, if it can be read. -/
def readText? (path : String) : IO (Option String) := do
  try
    return some (← IO.FS.readFile path)
  catch _ =>
    return none

end BitSerial

open BitSerial in
def main (arguments : List String) : IO UInt32 := do
  let home := (← IO.getEnv "HOME").getD ""
  let path := Settings.userPath home (← IO.getEnv "XDG_CONFIG_HOME")
  let fallback ←
    match ← IO.getEnv "CARGO_MANIFEST_DIR" with
    | none => pure none
    | some directory => readText? (Settings.joinPath directory "bismo-host.toml")
  let settings := Settings.load {
    user := ← readText? path
    project := ← readText? "bismo-host.toml"
    fallback
    clockVariable := ← IO.getEnv "BISMO_FCLK_MHZ"
    timeoutVariable := ← IO.getEnv "BISMO_RUN_TIMEOUT_MS" }
  let outcome := CommandLine.run arguments path settings
  IO.print outcome.output
  IO.eprint (outcome.errors.getD "")
  return UInt32.ofNat outcome.code
