import AccessLatency.Chart.Basic
import AccessLatency.Chart.Layout
import AccessLatency.Chart.Plan

/-!
# Charts as vector drawings

Of a vector drawing of a chart the library fixes what is drawn, and leaves out where: the size, the
coloured lines with their widths and numbers of points, and the texts, in the order in which they
stand in the file. A curve without points is not drawn and stands in the legend all the same. An
axis is labelled as often as the layout has an area for its label.
-/

set_option autoImplicit false

namespace AccessLatency

namespace Xml

/-- The special characters of a text and the names that stand for them. -/
def names : List (Char × String) :=
  [('<', "lt"), ('>', "gt"), ('&', "amp"), (Char.ofNat 39, "apos"), (Char.ofNat 34, "quot")]

/-- A character as it stands in a text. -/
def escapeChar (c : Char) : List Char :=
  match names.lookup c with
  | some name => '&' :: (name.toList ++ [';'])
  | none => [c]

/-- A text with its special characters escaped. -/
def escape (s : String) : String := String.ofList (s.toList.flatMap escapeChar)

end Xml

/-- A coloured line of a drawing. -/
structure Stroke where
  colour : Rgb
  width : Nat
  points : Nat
  deriving DecidableEq

/-- What a vector drawing of a chart shows. -/
structure SvgOutline where
  width : UInt32
  height : UInt32
  strokes : List Stroke
  texts : List String
  deriving DecidableEq

namespace SvgOutline

/-- The colours of the curves. -/
def curveColours : List Rgb := [⟨31, 119, 180⟩, ⟨255, 127, 14⟩]

/-- The line of a curve, unless it has no points. -/
def curveStroke? (curve : Curve) (colour : Rgb) : Option Stroke :=
  if curve.points.isEmpty then none else some ⟨colour, 2, curve.points.length⟩

/-- The line of a landmark. -/
def landmarkStroke (line : Landmark) : Stroke := ⟨line.colour.rgb, 1, 2⟩

/-- The sample of a curve's line in the legend. -/
def legendStroke (_ : Curve) (colour : Rgb) : Stroke := ⟨colour, 2, 2⟩

/-- The label of an axis. -/
def axisLabel (plan : ChartPlan) : ChartAxis → String
  | .horizontal => plan.xLabel
  | .vertical => plan.yLabel

/-- A drawing with nothing on it. -/
def blank (plan : ChartPlan) : SvgOutline :=
  { width := plan.width, height := plan.height, strokes := [], texts := [] }

/-- A drawing with nothing but the title on it. -/
def titled (plan : ChartPlan) : SvgOutline :=
  { blank plan with texts := [Xml.escape plan.title] }

/-- The drawing of a chart. -/
def ofChart (chart : Chart) (plan : ChartPlan) (layout : ChartLayout) : SvgOutline :=
  let landmarkStrokes := chart.landmarks.map landmarkStroke
  { width := plan.width
    height := plan.height
    strokes :=
      (List.zipWith curveStroke? chart.curves curveColours).filterMap id ++ landmarkStrokes
        ++ List.zipWith legendStroke chart.curves curveColours ++ landmarkStrokes
    texts :=
      (plan.title :: layout.labelled.map (axisLabel plan) ++ chart.curves.map Curve.label
        ++ chart.landmarks.map Landmark.label).map Xml.escape }

/-- A drawing without its last lines. -/
def withoutLast (count : Nat) (drawing : SvgOutline) : SvgOutline :=
  { drawing with strokes := drawing.strokes.take (drawing.strokes.length - count) }

end SvgOutline

end AccessLatency
