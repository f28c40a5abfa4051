import BitSerial.Decimal.Reading
import BitSerial.Decimal.Text
import BitSerial.Session
import BitSerial.Toml.Document

/-! # Settings

Settings come from several sources. A later source replaces what it sets and leaves the rest alone: first the defaults,
then the file of the user, the file of the project, and two environment variables. A file that cannot be read as a whole
is passed over. Of the project there is a second file, used where the first is missing or cannot be read.
-/

namespace BitSerial

/-- The settings of a host. -/
structure Settings where
  /-- Clock frequency in MHz. -/
  clock : Float
  /-- The milliseconds after which a run is given up. -/
  timeout : Option Nat
  /-- The geometry of the emulated device. -/
  emulator : Option Geometry

/-- What one source sets. -/
structure SettingsFile where
  clock : Option Float
  timeout : Option Nat
  emulator : Option Geometry

namespace Toml.Value

/-- A natural number below a limit. -/
def whole? (limit : Nat) : Value → Option Nat
  | .integer (.ofNat value) => if value < limit then some value else none
  | _ => none

/-- A floating point number. An integer is taken for the nearest one. -/
def number? : Value → Option Float
  | .float value => some value
  | .integer value => some (Float.ofInt value)
  | _ => none

end Toml.Value

namespace Geometry

/-- The names of the fields, in alphabetical order. -/
def fieldNames : List String :=
  ["acc_width", "cmd_queue_entries", "dpa_dim_common", "dpa_dim_lhs", "dpa_dim_rhs", "lhs_entries_per_mem",
   "max_shift_steps", "read_chan_width", "rhs_entries_per_mem", "write_chan_width"]

/-- The values of the fields, in the order of their names. -/
def fields (geometry : Geometry) : List Nat :=
  [geometry.accumulatorWidth, geometry.queueEntries, geometry.commonDim, geometry.lhsDim, geometry.rhsDim,
   geometry.lhsEntries, geometry.maxShift, geometry.readWidth, geometry.rhsEntries, geometry.writeWidth]

/-- A geometry with given values of its fields. There may be more values than fields. -/
def ofFields? : List Nat → Option Geometry
  | accumulatorWidth :: queueEntries :: commonDim :: lhsDim :: rhsDim :: lhsEntries :: maxShift :: readWidth ::
      rhsEntries :: writeWidth :: _ =>
    some { accumulatorWidth, queueEntries, commonDim, lhsDim, rhsDim, lhsEntries, maxShift, readWidth, rhsEntries,
           writeWidth }
  | _ => none

/-- Reads a geometry from a table that has all fields, or from an array that lists them in order. -/
def ofToml? : Toml.Value → Option Geometry
  | .table _ entries => do
    let values ← fieldNames.mapM fun name => do (← Toml.Entries.get? entries name).whole? Word32.size
    ofFields? values
  | .array items => do
    let values ← (items.take fieldNames.length).mapM (·.whole? Word32.size)
    ofFields? values
  | _ => none

end Geometry

namespace SettingsFile

/-- An entry that may be missing, but has to be readable if it is there. -/
def entry? {α : Type} (entries : Toml.Entries) (key : String) (read : Toml.Value → Option α) :
    Option (Option α) :=
  match entries.get? key with
  | none => some none
  | some value => (read value).map some

/-- Reads the text of a file. Entries with other names are ignored. -/
def ofText? (text : String) : Option SettingsFile := do
  let entries ← Toml.document? text
  let clock ← entry? entries "fclk_mhz" (·.number?)
  let timeout ← entry? entries "run_timeout_ms" (·.whole? Word64.size)
  let emulator ← entry? entries "emulator" Geometry.ofToml?
  return { clock, timeout, emulator }

end SettingsFile

/-- The texts that settings are loaded from, as far as they exist. -/
structure SettingsSources where
  /-- The file of the user. -/
  user : Option String
  /-- The file of the project. -/
  project : Option String
  /-- The second file of the project. -/
  fallback : Option String
  /-- The environment variable of the clock. -/
  clockVariable : Option String
  /-- The environment variable of the deadline. -/
  timeoutVariable : Option String

namespace Settings

/-- The settings without any source. -/
def default : Settings := ⟨defaultClock, none, none⟩

variable (settings : Settings)

/-- Replaces what a source sets. -/
def merge (file : SettingsFile) : Settings where
  clock := file.clock.getD settings.clock
  timeout := file.timeout <|> settings.timeout
  emulator := file.emulator <|> settings.emulator

/-- Replaces what a source sets, if there is one. -/
def mergeAny (file : Option SettingsFile) : Settings := (file.map settings.merge).getD settings

/-- The clock that a variable sets. It has to be above zero. -/
def clockOf? (text : String) : Option Float := do
  let clock ← Decimal.float? text
  guard (clock > 0.0)
  return clock

/-- The deadline that a variable sets. -/
def timeoutOf? (text : String) : Option Nat := (Decimal.whole Word64.size text).toOption

/-- Loads the settings from all sources. -/
def load (sources : SettingsSources) : Settings :=
  let user := sources.user.bind SettingsFile.ofText?
  let project := sources.project.bind SettingsFile.ofText? <|> sources.fallback.bind SettingsFile.ofText?
  let environment : SettingsFile := {
    clock := sources.clockVariable.bind clockOf?
    timeout := sources.timeoutVariable.bind timeoutOf?
    emulator := none }
  ((default.mergeAny user).mergeAny project).merge environment

/-- The geometry of the emulated device. -/
def geometry : Geometry := settings.emulator.getD .reference

/-- The device that the settings describe. -/
def device : Device := { Device.ofGeometry settings.geometry with clock := settings.clock }

/-- The bounds that the settings put on a run. -/
def options : Options := ⟨settings.timeout, false⟩

/-- A floating point number as a settings file writes it: with a place after the point at least. -/
def numberText (number : Float) : String :=
  if number.isNaN then "nan"
  else
    let text := Decimal.shortestText number
    if number.isInf || text.contains '.' then text else text ++ ".0"

/-- The settings as the text of a file. -/
def render : String :=
  let timeout := (settings.timeout.map fun timeout => s!"run_timeout_ms = {timeout}\n").getD ""
  let emulator := (settings.emulator.map fun geometry =>
    "\n[emulator]\n" ++ String.join ((Geometry.fieldNames.zip geometry.fields).map fun (name, value) =>
      s!"{name} = {value}\n")).getD ""
  s!"fclk_mhz = {numberText settings.clock}\n" ++ timeout ++ emulator

/-- The text of a file to start from. -/
def sample : String :=
"# bismo-host configuration
# Place this file at ~/.config/bismo-host/config.toml or ./bismo-host.toml

# Accelerator clock in MHz (defaults to 200)
fclk_mhz = 200.0

# Abandon runs that have not finished after this many milliseconds
# (defaults to waiting forever)
# run_timeout_ms = 5000

# Geometry of the emulated accelerator (defaults to 8x256x8)
# [emulator]
# acc_width = 32
# cmd_queue_entries = 16
# dpa_dim_common = 256
# dpa_dim_lhs = 8
# dpa_dim_rhs = 8
# lhs_entries_per_mem = 1024
# max_shift_steps = 16
# read_chan_width = 64
# rhs_entries_per_mem = 1024
# write_chan_width = 64
"

/-- A path with one more component. -/
def joinPath (path component : String) : String :=
  if path.isEmpty || path.endsWith "/" then path ++ component else path ++ "/" ++ component

/-- The path of the file of the user. The directory for settings is used if it is absolute, and one in the home
directory otherwise. -/
def userPath (home : String) (directory : Option String) : String :=
  let base :=
    match directory.filter (·.startsWith "/") with
    | some directory => directory
    | none => joinPath home ".config"
  joinPath (joinPath base "bismo-host") "config.toml"

end Settings

end BitSerial
