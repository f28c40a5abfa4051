import BitSerial.Decimal.Text
import BitSerial.Schedule

/-! # Performance reports

A report is taken at the end of a run: the cycle counters of the device and the traffic of the schedule. All other
figures follow from it. They are floating point numbers, and a quotient by zero counts as zero.
-/

namespace BitSerial

/-- The cycle counters of a device. -/
structure Counters where
  /-- The global cycle counter. -/
  cycles : Nat
  stages : PerStage StateCycles
  deriving DecidableEq, Repr

/-- The cycles that a stage worked. -/
def Counters.runCycles (counters : Counters) (stage : Stage) : Nat := (counters.stages.get stage).run

namespace Geometry

variable (geometry : Geometry)

/-- The binary operations of the array in a cycle, a product and its addition counted as two. -/
def peakOperations : Float :=
  2.0 * Float.ofNat geometry.lhsDim * Float.ofNat geometry.rhsDim * Float.ofNat geometry.commonDim

/-- The bytes that the read channel brings in a cycle. -/
def readBandwidth : Float := Float.ofNat geometry.readWidth / 8.0

/-- The bytes that the write channel takes in a cycle. -/
def writeBandwidth : Float := Float.ofNat geometry.writeWidth / 8.0

end Geometry

namespace Gemm

variable (gemm : Gemm)

/-- The operations of the product, two for each term, with or without the padding. -/
def operations (padding : Bool) : Float :=
  if padding then
    2.0 * Float.ofNat gemm.lhs.paddedRows * Float.ofNat gemm.rhs.paddedRows * Float.ofNat gemm.lhs.paddedCols
  else
    2.0 * Float.ofNat gemm.lhs.rows * Float.ofNat gemm.rhs.rows * Float.ofNat gemm.lhs.cols

/-- The operations of the product for all pairs of bit planes. -/
def binaryOperations (padding : Bool) : Float :=
  gemm.operations padding * Float.ofNat gemm.lhs.bits * Float.ofNat gemm.rhs.bits

end Gemm

/-- A quotient, or zero where there is nothing to divide by. -/
def quotient (numerator denominator : Float) : Float :=
  if denominator == 0.0 then 0.0 else numerator / denominator

/-- The performance of one run. -/
structure Report where
  geometry : Geometry
  gemm : Gemm
  counters : Counters
  /-- The traffic of the schedule that ran. -/
  traffic : Traffic
  /-- Clock frequency in MHz. -/
  clock : Float
  /-- Instructions of each stage. -/
  instructions : PerStage Nat

namespace Report

variable (report : Report)

/-- Nanoseconds of a cycle. -/
def cycleTime : Float := quotient 1000.0 report.clock

/-- Cycles of the run. -/
def runtimeCycles : Float := Float.ofNat report.counters.cycles

/-- Nanoseconds of the run. -/
def runtime : Float := report.runtimeCycles * report.cycleTime

/-- Binary operations in a nanosecond of the run. -/
def achieved (padding : Bool) : Float := quotient (report.gemm.binaryOperations padding) report.runtime

/-- Binary operations in a nanosecond that the array can do. -/
def peak : Float := quotient report.geometry.peakOperations report.cycleTime

/-- The bytes of both operands. -/
def operandBytes : Except Fault Nat := do
  let lhsBytes ← report.gemm.lhs.bytes
  let rhsBytes ← report.gemm.rhs.bytes
  Word64.add lhsBytes rhsBytes

/-- Binary operations for each byte of the operands. -/
def readIntensity : Except Fault Float := do
  return quotient (report.gemm.binaryOperations true) (Float.ofNat (← report.operandBytes))

/-- Binary operations for each byte of the result. -/
def writeIntensity : Except Fault Float := do
  return quotient (report.gemm.binaryOperations true) (Float.ofNat (← report.gemm.resultBytes))

/-- Binary operations for each byte of operands and result. -/
def intensity : Except Fault Float := do
  let bytes ← Word64.add (← report.operandBytes) (← report.gemm.resultBytes)
  return quotient (report.gemm.binaryOperations true) (Float.ofNat bytes)

/-- The read intensity above which the array, and not the channel, is the limit. -/
def computeBoundReadIntensity : Float :=
  quotient report.geometry.peakOperations report.geometry.readBandwidth

/-- The write intensity above which the array, and not the channel, is the limit. -/
def computeBoundWriteIntensity : Float :=
  quotient report.geometry.peakOperations report.geometry.writeBandwidth

/-- Bytes read in a cycle of the whole run. -/
def effectiveReadBandwidth : Float :=
  quotient (Float.ofNat report.traffic.fetchBytes) report.runtimeCycles

/-- Bytes written in a cycle of the whole run. -/
def effectiveWriteBandwidth : Float :=
  quotient (Float.ofNat report.traffic.writeBytes) report.runtimeCycles

/-- Bytes read in a cycle in which the fetch stage worked. -/
def fetchBandwidth : Float :=
  quotient (Float.ofNat report.traffic.fetchBytes) (Float.ofNat (report.counters.runCycles .fetch))

/-- Bytes written in a cycle in which the result stage worked. -/
def resultBandwidth : Float :=
  quotient (Float.ofNat report.traffic.writeBytes) (Float.ofNat (report.counters.runCycles .result))

/-- The operations of the run over those that the array can do while a stage works. -/
def stageEfficiency (stage : Stage) : Float :=
  quotient (report.gemm.binaryOperations true)
    (Float.ofNat (report.counters.runCycles stage) * report.geometry.peakOperations)

/-- A text filled up with blanks to the width of a table column. -/
def column (text : String) : String :=
  text ++ String.ofList (List.replicate (11 - text.length) ' ')

/-- The table of the cycles of each stage in each state. -/
def stateTable : String :=
  let head := column "Stage" ++ String.join (ControlState.all.map (column ·.label))
  let line (stage : Stage) :=
    column stage.name ++
      String.join ((report.counters.stages.get stage).toList.map fun cycles => column (toString cycles))
  "Cycles Spent in ControllerState ========================\n" ++ head ++ "\n" ++
    String.join (Stage.all.map fun stage => line stage ++ "\n")

/-- A share as a percentage. -/
def percentage (part whole : Float) : String :=
  Decimal.fixedText 2 (100.0 * quotient part whole) ++ "%"

/-- One line on the bandwidth of a channel. -/
def bandwidthLine (name : String) (bandwidth available : Float) : String :=
  s!"{name} bandwidth: {Decimal.fixedText 3 bandwidth} bytes/cycle ({percentage bandwidth available})\n"

/-- The report as text. -/
def render : Except Fault String := do
  let padded := report.gemm.binaryOperations true
  let actual := report.gemm.binaryOperations false
  let lhsBytes ← report.gemm.lhs.bytes
  let rhsBytes ← report.gemm.rhs.bytes
  let resultBytes ← report.gemm.resultBytes
  let bufferBytes ← report.geometry.bufferBytes
  let readIntensity ← report.readIntensity
  let writeIntensity ← report.writeIntensity
  let shown := Decimal.shortestText
  let rounded := Decimal.fixedText 2
  let readPeak := report.geometry.readBandwidth
  let writePeak := report.geometry.writeBandwidth
  let achieved := report.achieved true
  return String.join [
    "Performance Summary ====================================\n",
    s!"Total workload: {shown padded} binary ops\n",
    s!"Actual workload: {shown actual} binary ops ({percentage actual padded})\n",
    s!"Input matrix bytes: LHS {lhsBytes} RHS {rhsBytes}\n",
    s!"Result matrix bytes: {resultBytes}\n",
    s!"Instructions: {report.instructions.fetch} fetch {report.instructions.execute} execute ",
    s!"{report.instructions.result} result\n",
    s!"HW input matrix buffer bytes: {bufferBytes}\n",
    s!"HW peak perf: {rounded report.peak} binary GOPS\n",
    s!"HW fclk: {shown report.clock} MHz\n",
    s!"Runtime: {report.counters.cycles} cycles, {Decimal.fixedText 1 report.runtime} ns\n",
    s!"Achieved: {rounded achieved} binary GOPS ({percentage achieved report.peak})\n",
    s!"Workload OI read: {rounded readIntensity} write: {rounded writeIntensity}\n",
    s!"HW comp-bound OI read: {rounded report.computeBoundReadIntensity} ",
    s!"write: {rounded report.computeBoundWriteIntensity}\n",
    report.stateTable,
    "Memory System ==========================================\n",
    s!"DRAM reads: {report.traffic.fetchBytes} bytes\n",
    s!"HW peak rd bandwidth: {shown readPeak} bytes/cycle\n",
    bandwidthLine "Effective rd" report.effectiveReadBandwidth readPeak,
    bandwidthLine "Fetch rd" report.fetchBandwidth readPeak,
    s!"DRAM writes: {report.traffic.writeBytes} bytes\n",
    s!"HW peak wr bandwidth: {shown writePeak} bytes/cycle\n",
    bandwidthLine "Effective wr" report.effectiveWriteBandwidth writePeak,
    bandwidthLine "Result wr" report.resultBandwidth writePeak,
    s!"Execute stage efficiency: {rounded (100.0 * report.stageEfficiency .execute)}%\n",
    "========================================================"]

end Report

end BitSerial
