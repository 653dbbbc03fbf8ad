import AccessLatency.Proofs.Tex.ReadBack
import Mathlib.Tactic

/-!
# The document of a chart

A chart with finite ranges is written as a document from which all of it can be read: the points of
the curves, the landmarks as lines across the vertical range, the labels of both in the same order,
and the ranges. The main statement is `document_reads_back`.
-/

set_option autoImplicit false

namespace AccessLatency

namespace TexFigure

variable {t : LatencyTable} {m : Landmarks} {x y : AxisScale} {chart : Chart} {plan : ChartPlan}

/-- The label of the horizontal axis can be set as text. -/
theorem isText_xLabel (plan : ChartPlan) : IsText plan.xLabel.toList := by
  have all : ∀ scale : AxisScale,
      IsText ("Bytes allocated (" ++ scale.name ++ " scale)").toList := by
    intro scale
    cases scale <;> decide
  exact all plan.xScale

/-- The label of the vertical axis can be set as text. -/
theorem isText_yLabel (plan : ChartPlan) : IsText plan.yLabel.toList := by
  have all : ∀ scale : AxisScale, IsText ("Latency (ns " ++ scale.name ++ " scale)").toList := by
    intro scale
    cases scale <;> decide
  exact all plan.yScale

/-- The plot of a curve with finite points can be written and read back. -/
theorem isWritable_curvePlot {curve : Curve} {colour : String} (known : colour ∈ curveColours)
    (h : ∀ p ∈ curve.points, p.IsFinite) : (curvePlot curve colour).IsWritable := by
  have style : ∀ colour ∈ curveColours,
      TexPlot.IsStyle ("draw=" ++ colour ++ ", no marks, thick").toList := by decide
  exact ⟨style colour known, h⟩

/-- The plot of a landmark at a finite place in a finite range can be written and read back. -/
theorem isWritable_landmarkPlot {yRange : Range} {line : Landmark} (h : line.x.isFinite = true)
    (ends : yRange.IsFinite) : (landmarkPlot yRange line).IsWritable := by
  have style : ∀ colour : LineColour,
      TexPlot.IsStyle ("draw=" ++ colour.texName ++ ", no marks").toList := by
    intro colour
    cases colour <;> decide
  refine ⟨style line.colour, ?_⟩
  intro p member
  simp only [landmarkPlot, List.mem_cons, List.not_mem_nil, or_false] at member
  rcases member with rfl | rfl
  · exact ⟨h, ends.1⟩
  · exact ⟨h, ends.2⟩

/-- A chart has two curves, of random and of sequential access. -/
theorem exists_curves (made : (Chart.ofTable t m x y).result = .ok chart) :
    ∃ random sequential,
      chart.curves = [⟨"Random access", random⟩, ⟨"Sequential access", sequential⟩] :=
  ⟨_, _, (Chart.ofTable_eq_ok made).1⟩

/-- The figure of a chart with finite ranges can be written. -/
theorem isWritable_ofChart (made : (Chart.ofTable t m x y).result = .ok chart)
    (xFinite : chart.xRange.IsFinite) (yFinite : chart.yRange.IsFinite) (plan : ChartPlan) :
    (ofChart chart plan).IsWritable := by
  have finite := Chart.isFinite_of_ranges made xFinite yFinite
  obtain ⟨random, sequential, curves⟩ := exists_curves made
  refine ⟨isText_escape _, isText_xLabel plan, isText_yLabel plan, ?_, ?_, xFinite, yFinite, ?_⟩
  · simp [ofChart, curves]
  · intro entry member
    rcases List.mem_append.1 member with curve | landmark
    · have labels : ∀ label ∈ ["Random access", "Sequential access"], IsText label.toList := by
        decide
      rw [curves] at curve
      simp only [List.map_cons, List.map_nil, List.mem_cons, List.not_mem_nil, or_false] at curve
      rcases curve with rfl | rfl <;> exact labels _ (by simp)
    · obtain ⟨line, -, rfl⟩ := List.mem_map.1 landmark
      exact isText_escape _
  · intro plot member
    rcases List.mem_append.1 member with curve | landmark
    · have points := finite.points
      rw [curves, List.forall_mem_cons, List.forall_mem_singleton] at points
      rw [curves] at curve
      simp only [curveColours, List.zipWith_cons_cons, List.zipWith_nil_left, List.mem_cons,
        List.not_mem_nil, or_false] at curve
      rcases curve with rfl | rfl
      · exact isWritable_curvePlot (by simp [curveColours]) points.1
      · exact isWritable_curvePlot (by simp [curveColours]) points.2
    · obtain ⟨line, hline, rfl⟩ := List.mem_map.1 landmark
      exact isWritable_landmarkPlot (finite.landmarks line hline) yFinite

/-- The plots of a figure have the points of the curves, and for each landmark a line from the lower
to the upper end of the vertical axis. -/
theorem points_ofChart (made : (Chart.ofTable t m x y).result = .ok chart) (plan : ChartPlan) :
    (ofChart chart plan).plots.map TexPlot.points =
      chart.curves.map Curve.points
        ++ chart.landmarks.map fun line =>
          [⟨line.x, chart.yRange.lower⟩, ⟨line.x, chart.yRange.upper⟩] := by
  obtain ⟨random, sequential, curves⟩ := exists_curves made
  have landmarks : ((chart.landmarks.map (landmarkPlot chart.yRange)).map TexPlot.points) =
      chart.landmarks.map fun line =>
        [⟨line.x, chart.yRange.lower⟩, ⟨line.x, chart.yRange.upper⟩] := List.map_map
  unfold ofChart
  rw [List.map_append, landmarks, curves]
  rfl

/-- The legend of a figure has the labels of the curves and of the landmarks. -/
theorem unescape_legend_ofChart (made : (Chart.ofTable t m x y).result = .ok chart)
    (plan : ChartPlan) :
    (ofChart chart plan).legend.map Tex.unescape =
      (chart.curves.map Curve.label ++ chart.landmarks.map Landmark.label).map String.toList := by
  obtain ⟨random, sequential, curves⟩ := exists_curves made
  have plain : ∀ label ∈ ["Random access", "Sequential access"],
      Tex.unescape label.toList = label.toList := by decide
  have landmarks : (chart.landmarks.map fun line => Tex.escape line.label.toList).map Tex.unescape =
      (chart.landmarks.map Landmark.label).map String.toList := by
    simp only [List.map_map, Function.comp_def, Tex.unescape_escape]
  rw [List.forall_mem_cons, List.forall_mem_singleton] at plain
  unfold ofChart
  rw [List.map_append, List.map_append, landmarks, curves]
  simp only [List.map_cons, List.map_nil, plain]

/-- A chart that is made of a table and has finite ranges is written into its document without loss.
The document begins as many plots as the chart has curves and landmarks. It is read as a figure: with
the points of each curve, and for each landmark the two ends of its line, bit for bit and in order;
with the labels of the same curves and landmarks in the legend; and with the ranges of the chart. -/
theorem document_reads_back (t : LatencyTable) (m : Landmarks) (x y : AxisScale) (chart : Chart)
    (plan : ChartPlan) (made : (Chart.ofTable t m x y).result = .ok chart)
    (xFinite : chart.xRange.IsFinite) (yFinite : chart.yRange.IsFinite) :
    Text.occurrences plotCommand (ofChart chart plan).document.toList =
        chart.curves.length + chart.landmarks.length ∧
      ∃ figure, ofDocument? (ofChart chart plan).document = some figure ∧
        figure.plots.map TexPlot.points =
          chart.curves.map Curve.points
            ++ chart.landmarks.map (fun line =>
              [⟨line.x, chart.yRange.lower⟩, ⟨line.x, chart.yRange.upper⟩]) ∧
        figure.legend.map Tex.unescape =
          (chart.curves.map Curve.label ++ chart.landmarks.map Landmark.label).map String.toList ∧
        figure.xRange = chart.xRange ∧ figure.yRange = chart.yRange := by
  have writable := isWritable_ofChart made xFinite yFinite plan
  have points := points_ofChart made plan
  refine ⟨?_, _, ofDocument?_document writable, points, unescape_legend_ofChart made plan, rfl, rfl⟩
  have length := congrArg List.length points
  rw [List.length_map, List.length_append, List.length_map, List.length_map] at length
  rw [occurrences_document writable, length]

/-- A table of one row. -/
def oneRow : LatencyTable := ⟨[⟨100, Binary64.ofNat 1, Binary64.ofNat 2⟩]⟩

/-- The table of one row has a chart with finite axes. -/
theorem exists_chart_oneRow :
    ∃ chart, (Chart.ofTable oneRow (Landmarks.ofSizes {}) .log .log).result = .ok chart ∧
      chart.xRange.IsFinite ∧ chart.yRange.IsFinite := by
  have finite : (Chart.ofTable oneRow (Landmarks.ofSizes {}) .log .log).result.toOption.any
      (fun chart => chart.xRange.lower.isFinite && chart.xRange.upper.isFinite
        && (chart.yRange.lower.isFinite && chart.yRange.upper.isFinite)) = true := by
    decide +kernel
  cases made : (Chart.ofTable oneRow (Landmarks.ofSizes {}) .log .log).result with
  | error fault =>
    rw [made] at finite
    cases finite
  | ok chart =>
    rw [made] at finite
    simp only [Except.toOption, Option.any_some, Bool.and_eq_true] at finite
    exact ⟨chart, rfl, finite.1, finite.2⟩

/-- The chart of one row, with landmarks, under a title that has to be escaped. -/
theorem document_oneRow :
    ∃ chart figure,
      (Chart.ofTable oneRow (Landmarks.ofSizes {}) .log .log).result = .ok chart ∧
      ofDocument? (ofChart chart ⟨"o.tex", .tex, .log, .log, "50%", 900, 600⟩).document
        = some figure ∧
      figure.plots.length = 6 ∧ figure.legend.length = 6 ∧ figure.xRange = chart.xRange := by
  obtain ⟨chart, made, xFinite, yFinite⟩ := exists_chart_oneRow
  obtain ⟨-, figure, read, plots, legend, range, -⟩ := document_reads_back oneRow
    (Landmarks.ofSizes {}) .log .log chart ⟨"o.tex", .tex, .log, .log, "50%", 900, 600⟩ made xFinite
    yFinite
  obtain ⟨curves, landmarks, -⟩ := Chart.ofTable_eq_ok made
  have four : chart.landmarks.length = 4 := by
    rw [landmarks]
    decide +kernel
  have two : chart.curves.length = 2 := by
    rw [curves]
    rfl
  have plots := congrArg List.length plots
  have legend := congrArg List.length legend
  simp only [List.length_map, List.length_append, four, two] at plots legend
  exact ⟨chart, figure, made, read, plots, legend, range⟩

end TexFigure

end AccessLatency
