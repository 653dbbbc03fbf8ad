import AccessLatency.Chart.Scale
import AccessLatency.Files.Path

/-!
# Plans of charts

A plan says where a chart goes, in which format, under which title, on which scales and in which
size. The extension of the path names the format, in large or small letters.
-/

set_option autoImplicit false

namespace AccessLatency

/-- The formats a chart can be written in. -/
inductive ChartFormat where
  | png
  | svg
  | tex
  | pdf
  deriving DecidableEq, Repr

namespace ChartFormat

/-- The extension of the files of a format. -/
def extension : ChartFormat → String
  | .png => "png"
  | .svg => "svg"
  | .tex => "tex"
  | .pdf => "pdf"

/-- All formats. -/
def all : List ChartFormat := [.png, .svg, .tex, .pdf]

/-- The format that the extension of a path names. -/
def ofPath? (path : String) : Option ChartFormat :=
  (Path.extension? path.toList).bind fun extension =>
    all.find? fun format => format.extension.toList == Text.lower extension

end ChartFormat

/-- All that a drawing of a chart depends on besides the chart. -/
structure ChartPlan where
  output : String
  format : ChartFormat
  xScale : AxisScale
  yScale : AxisScale
  title : String
  width : UInt32
  height : UInt32
  deriving DecidableEq

namespace ChartPlan

/-- The label of the horizontal axis. -/
def xLabel (plan : ChartPlan) : String := "Bytes allocated (" ++ plan.xScale.name ++ " scale)"

/-- The label of the vertical axis. -/
def yLabel (plan : ChartPlan) : String := "Latency (ns " ++ plan.yScale.name ++ " scale)"

end ChartPlan

end AccessLatency
