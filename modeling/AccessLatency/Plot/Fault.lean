import AccessLatency.Chart.Basic
import AccessLatency.Files.Fault
import AccessLatency.LatencyTable.Csv
import AccessLatency.Plot.Settings
import AccessLatency.Word

/-!
# Why a plot fails

The faults of all steps of a plot, each with what it says about its step.
-/

set_option autoImplicit false

namespace AccessLatency

/-- The sides of an image. -/
inductive ImageSide where
  | width
  | height
  deriving DecidableEq, Repr

/-- The name of a side. -/
def ImageSide.name : ImageSide → String
  | .width => "width"
  | .height => "height"

/-- Why a chart cannot be written as an image or a document. -/
inductive DrawingFault where
  | outline (why : FileFault)
  | bitmap (why : FileFault)
  | emptyBitmap (side : ImageSide)
  | typesetterStopped (status : Nat)
  | typesetterUnavailable (why : FileFault)
  deriving DecidableEq, Repr

/-- The wording of a drawing fault. -/
def DrawingFault.message : DrawingFault → String
  | .outline why => "backend error: Drawing backend error: " ++ why.message
  | .bitmap why =>
    "backend error: Drawing backend error: ImageError(IoError(" ++ why.inFull ++ "))"
  | .emptyBitmap side =>
    "backend error: Drawing backend error: ImageError(IoError(Custom \x7b kind: Other, error: "
      ++ Text.quoted ("Zero " ++ side.name ++ " not allowed").toList ++ " \x7d))"
  | .typesetterStopped status =>
    "Failed to create PDF: BadExitCode \x7b status: ExitStatus(unix_wait_status("
      ++ toString (256 * status) ++ ")) \x7d"
  | .typesetterUnavailable why => "Failed to create PDF: IoError(" ++ why.inFull ++ ")"

/-- Why a plot fails. -/
inductive PlotFault where
  | file (path : String) (why : FileFault)
  | table (why : LatencyTable.ReadFault)
  | chart (why : Chart.Fault)
  | drawing (why : DrawingFault)
  | settings (why : PlotSettings.Fault)
  | overflow (why : Word.Overflow)
  | axisWithoutBounds
  deriving DecidableEq

/-- The wording of a fault. -/
def PlotFault.message : PlotFault → String
  | .file path why => "Cannot read " ++ path ++ ": " ++ why.message
  | .table why => "Malformed CSV at line " ++ toString why.line ++ ": " ++ why.fault.message
  | .chart why => why.message
  | .drawing why => "Rendering failed: " ++ why.message
  | .settings why => why.message
  | .overflow why => why.message
  | .axisWithoutBounds => "assertion failed: !(range.0.is_nan() || range.1.is_nan())"

/-- Whether a fault breaks a program off, instead of being reported by it. -/
def PlotFault.breaksOff : PlotFault → Bool
  | .overflow _ => true
  | .axisWithoutBounds => true
  | _ => false

end AccessLatency
