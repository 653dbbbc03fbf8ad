import AccessLatency.Binary64.Shortest
import AccessLatency.Chart.Basic
import AccessLatency.Chart.Plan

/-!
# Charts as TeX documents

A figure is what a chart says in the terms of a TeX document: escaped titles, a mode and bounds for
each axis, legend entries, and one plot for each curve and each landmark. `Tex.escape` makes any
text safe to stand in a group, and `TexFigure.document` writes a figure out, one thing a line.
-/

set_option autoImplicit false

namespace AccessLatency

namespace Tex

/-- The characters that a backslash in front makes plain. -/
def special : List Char := ['&', '%', '$', '#', '_', '\x7b', '\x7d']

/-- A command without arguments, closed by an empty group. -/
def command (name : String) : List Char := '\\' :: (name.toList ++ ['\x7b', '\x7d'])

/-- A character as it stands in a text. -/
def escapeChar (c : Char) : List Char :=
  if c ∈ special then ['\\', c]
  else if c = '~' then command "textasciitilde"
  else if c = '^' then command "textasciicircum"
  else if c = '\\' then command "textbackslash"
  else [c]

/-- A text with its special characters escaped. -/
def escape (s : List Char) : List Char := s.flatMap escapeChar

/-- A text as a group. -/
def group (s : List Char) : List Char := '\x7b' :: (s ++ ['\x7d'])

/-- The name of a scale in the options of an axis. -/
def mode : AxisScale → String
  | .log => "log"
  | .linear => "normal"

end Tex

/-- A plot of a figure: the style of its line and its points. -/
structure TexPlot where
  style : String
  points : List Point
  deriving DecidableEq

/-- A chart in the terms of a TeX document; its texts are escaped. -/
structure TexFigure where
  title : List Char
  xLabel : List Char
  yLabel : List Char
  xScale : AxisScale
  yScale : AxisScale
  xRange : Range
  yRange : Range
  legend : List (List Char)
  plots : List TexPlot
  deriving DecidableEq

namespace TexFigure

/-- The colours of the curves. -/
def curveColours : List String := ["blue", "orange"]

/-- The plot of a curve. -/
def curvePlot (curve : Curve) (colour : String) : TexPlot :=
  ⟨"draw=" ++ colour ++ ", no marks, thick", curve.points⟩

/-- The plot of a landmark: a line from the lower bound of the vertical axis to the upper. -/
def landmarkPlot (yRange : Range) (line : Landmark) : TexPlot :=
  ⟨"draw=" ++ line.colour.texName ++ ", no marks", [⟨line.x, yRange.lower⟩, ⟨line.x, yRange.upper⟩]⟩

/-- The figure of a chart. -/
def ofChart (chart : Chart) (plan : ChartPlan) : TexFigure :=
  { title := Tex.escape plan.title.toList
    xLabel := plan.xLabel.toList
    yLabel := plan.yLabel.toList
    xScale := plan.xScale
    yScale := plan.yScale
    xRange := chart.xRange
    yRange := chart.yRange
    legend :=
      chart.curves.map (fun curve => curve.label.toList)
        ++ chart.landmarks.map fun line => Tex.escape line.label.toList
    plots :=
      List.zipWith curvePlot chart.curves curveColours
        ++ chart.landmarks.map (landmarkPlot chart.yRange) }

/-- A point as a pair of coordinates. -/
def pointText (p : Point) : List Char :=
  '(' :: (p.x.chars ++ ',' :: (p.y.chars ++ [')']))

/-- The lines of a plot. -/
def plotLines (plot : TexPlot) : List (List Char) :=
  ["\t\\addplot[".toList, "\t\t".toList ++ plot.style.toList ++ [','],
    "\t] coordinates \x7b".toList]
    ++ plot.points.map (fun p => "\t\t".toList ++ pointText p)
    ++ ["\t\x7d;".toList]

/-- An option of the axis whose value is a group, as a line. -/
def groupLine (name : String) (value : List Char) : List Char :=
  '\t' :: (name.toList ++ '=' :: (Tex.group value ++ [',']))

/-- The options of the axis that hold its modes and bounds, as a line. -/
def boundsLine (figure : TexFigure) : List Char :=
  "\theight=10cm, width=16cm, xmode=".toList ++ (Tex.mode figure.xScale).toList
    ++ ", ymode=".toList ++ (Tex.mode figure.yScale).toList
    ++ ", xmin=".toList ++ figure.xRange.lower.chars
    ++ ", xmax=".toList ++ figure.xRange.upper.chars
    ++ ", ymin=".toList ++ figure.yRange.lower.chars
    ++ ", ymax=".toList ++ figure.yRange.upper.chars
    ++ ", tick align=outside, tick pos=left, legend pos=outer north east,,".toList

/-- The entries of the legend, each a group. -/
def legendText (figure : TexFigure) : List Char :=
  ((figure.legend.map Tex.group).intersperse [',']).flatten

/-- The lines of the document of a figure. -/
def lines (figure : TexFigure) : List (List Char) :=
  ["\\documentclass\x7bstandalone\x7d".toList, "\\usepackage\x7bpgfplots\x7d".toList,
    "\\begin\x7bdocument\x7d".toList, "\\begin\x7btikzpicture\x7d".toList,
    "\\begin\x7baxis\x7d[".toList, groupLine "title" figure.title,
    groupLine "xlabel" figure.xLabel, groupLine "ylabel" figure.yLabel, boundsLine figure,
    groupLine "legend entries" (legendText figure), [']']]
    ++ figure.plots.flatMap plotLines
    ++ ["\\end\x7baxis\x7d".toList, "\\end\x7btikzpicture\x7d".toList,
      "\\end\x7bdocument\x7d".toList]

/-- The document of a figure; the last line has no end. -/
def document (figure : TexFigure) : String :=
  String.ofList ((lines figure).intersperse ['\n']).flatten

end TexFigure

end AccessLatency
