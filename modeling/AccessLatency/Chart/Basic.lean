import AccessLatency.Chart.Landmark
import AccessLatency.Chart.Scale
import AccessLatency.LatencyTable.Basic
import AccessLatency.Log

/-!
# Charts

A chart shows the two latencies of a table as curves over the array size, and the landmarks as lines
across it. Points and landmarks that an axis cannot show are left out. `Chart.ofTable` makes the
chart of a table, with axes that have room for all that is left, or says why there is nothing to
show.
-/

set_option autoImplicit false

namespace AccessLatency

/-- Points under one label. -/
structure Curve where
  label : String
  points : List Point
  deriving DecidableEq

/-- Curves and landmarks with the ranges of the axes, and the number of points left out. -/
structure Chart where
  curves : List Curve
  landmarks : List Landmark
  xRange : Range
  yRange : Range
  dropped : Nat
  deriving DecidableEq

namespace Chart

/-- Why there is nothing to show. -/
inductive Fault where
  | emptyTable
  | nothingToShow
  deriving DecidableEq, Repr

/-- The wording of a fault. -/
def Fault.message : Fault → String
  | .emptyTable => "Nothing to plot: the measurement table is empty"
  | .nothingToShow => "Nothing to plot: no point is representable on the chosen axis scales"

/-- Whether a chart with axes of the given scales can show a point. -/
def showsPoint (x y : AxisScale) (p : Point) : Bool := x.shows p.x && y.shows p.y

/-- The curves of a table, without the points that cannot be shown. -/
def curvesOf (t : LatencyTable) (x y : AxisScale) : List Curve :=
  [⟨"Random access", t.randomPoints.filter (showsPoint x y)⟩,
   ⟨"Sequential access", t.sequentialPoints.filter (showsPoint x y)⟩]

/-- The points of all curves. -/
def pointsOf (curves : List Curve) : List Point := curves.flatMap Curve.points

/-- The number of points of a table that cannot be shown. -/
def droppedFrom (t : LatencyTable) (x y : AxisScale) : Nat :=
  (t.randomPoints ++ t.sequentialPoints).countP fun p => !showsPoint x y p

/-- The warning about points left out. -/
def droppedWarning (count : Nat) (x y : AxisScale) : String :=
  "Dropped " ++ toString count ++ " points that cannot be shown on a " ++ x.name ++ " x / "
    ++ y.name ++ " y chart"

/-- The landmarks that the horizontal axis can show. -/
def shownLandmarks (m : Landmarks) (x : AxisScale) : List Landmark :=
  m.lines.filter fun line => x.shows line.x

/-- The chart of curves and landmarks, unless there is no point. -/
def ofCurves (curves : List Curve) (landmarks : List Landmark) (dropped : Nat) (x y : AxisScale) :
    Except Fault Chart :=
  let points := pointsOf curves
  match Range.ofValues? (points.map Point.y),
      Range.ofValues? (points.map Point.x ++ landmarks.map Landmark.x) with
  | some yValues, some xValues =>
    .ok
      { curves
        landmarks
        xRange := Range.padded x xValues
        yRange := Range.padded y yValues
        dropped }
  | _, _ => .error .nothingToShow

/-- The chart of a table, with a warning if points are left out. -/
def ofTable (t : LatencyTable) (m : Landmarks) (x y : AxisScale) : Outcome Fault Chart :=
  if t.rows.isEmpty then Outcome.fail .emptyTable
  else
    let dropped := droppedFrom t x y
    (Outcome.recordIf (decide (0 < dropped)) .warn (droppedWarning dropped x y)).bind fun _ =>
      Outcome.ofExcept (ofCurves (curvesOf t x y) (shownLandmarks m x) dropped x y)

end Chart

end AccessLatency
