import AccessLatency.Chart.Plan
import AccessLatency.Json.Decode
import AccessLatency.Machine.Sizes

/-!
# Settings of a plot

What is plotted from which table, onto which scales, with which landmarks, and into which image.
Without an output path the chart goes beside the table. `validate` names the first setting that no
chart can be made with; `plan` is what the drawing of the chart depends on.
-/

set_option autoImplicit false

namespace AccessLatency

/-- The settings of a plot. -/
structure PlotSettings where
  input : String := "out.csv"
  output : Option String := none
  xScale : AxisScale := .log
  yScale : AxisScale := .linear
  sizes : MachineSizes := {}
  title : String := "Latency as a function of array size"
  width : UInt32 := 1280
  height : UInt32 := 800
  deriving DecidableEq

namespace PlotSettings

/-- What is wrong with settings or with the text they are read from. -/
inductive Fault where
  | notJson
  | unknownKeys (keys : List String)
  | mismatch (why : Json.Mismatch)
  | notPositive (name : String)
  | emptyImage (width height : UInt32)
  | noFormat (path : String)
  deriving DecidableEq

/-- The reason that a fault gives. -/
def Fault.reason : Fault → String
  | .notJson => "not a JSON text"
  | .unknownKeys keys => "unknown configuration key(s): " ++ String.intercalate ", " keys
  | .mismatch why => why.message
  | .notPositive name => name ++ " must be positive"
  | .emptyImage width height =>
    "image size " ++ toString width.toNat ++ "x" ++ toString height.toNat ++ " is empty"
  | .noFormat path =>
    "cannot infer an output format from " ++ path ++ " (expected .png, .svg, .tex or .pdf)"

/-- The wording of a fault. -/
def Fault.message (fault : Fault) : String := "Invalid configuration: " ++ fault.reason

/-- The path the chart is written to: the one that is set, or that of the table as an image. -/
def outputPath (s : PlotSettings) : String :=
  s.output.getD (String.ofList (Path.withExtension ChartFormat.png.extension.toList s.input.toList))

/-- The format that a path names. -/
def formatOf (path : String) : Except Fault ChartFormat :=
  match ChartFormat.ofPath? path with
  | some format => .ok format
  | none => .error (.noFormat path)

/-- The sizes of the machine under their names, in the order they are written in. -/
def namedSizes (sizes : MachineSizes) : List (String × UInt64) :=
  [("l1_size", sizes.l1), ("l2_size", sizes.l2), ("l3_size", sizes.l3), ("word_size", sizes.word),
   ("page_size", sizes.page)]

/-- Refuse settings that no chart can be made with. -/
def validate (s : PlotSettings) : Except Fault Unit :=
  match (namedSizes s.sizes).find? fun size => size.2 == 0 with
  | some (name, _) => .error (.notPositive name)
  | none =>
    if s.width = 0 ∨ s.height = 0 then .error (.emptyImage s.width s.height)
    else
      match formatOf s.outputPath with
      | .error fault => .error fault
      | .ok _ => .ok ()

/-- The plan of the chart. -/
def plan (s : PlotSettings) : Except Fault ChartPlan :=
  match formatOf s.outputPath with
  | .error fault => .error fault
  | .ok format =>
    .ok
      { output := s.outputPath
        format
        xScale := s.xScale
        yScale := s.yScale
        title := s.title
        width := s.width
        height := s.height }

end PlotSettings

end AccessLatency
