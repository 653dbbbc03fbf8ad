import AccessLatency.Proofs.Chart.Outline
import AccessLatency.Proofs.Chart.TexDocument
import Mathlib.Tactic

/-!
# One chart in two formats

A chart is drawn and written by separate functions, one for vector drawings and one for documents. A
drawing `Shows` a figure if both hold the same texts and lines, though the texts are escaped by
different rules, and a curve without points has a plot in the document and no line in the drawing.

The labels of the axes are apart: a drawing has as many of them as its layout has areas for. The
statement about the two formats, `outline_shows_document`, says when that is one for each axis;
`outline_without_label` is a chart that has none for one of them.
-/

set_option autoImplicit false

namespace AccessLatency

/-- The label of an axis of a figure. -/
def TexFigure.axisLabel (figure : TexFigure) : ChartAxis → List Char
  | .horizontal => figure.xLabel
  | .vertical => figure.yLabel

namespace SvgOutline

/-- The line that stands for a plot of a curve; there is none if the plot has no points. -/
def plotStroke? (plot : TexPlot) (colour : Rgb) : Option Stroke :=
  if plot.points.isEmpty then none else some ⟨colour, 2, plot.points.length⟩

/-- A drawing shows what a figure says, the first plots of which are curves. Its texts are the title,
the labels of the given axes and the legend of the figure. Its lines are those of the curves that
have points, a line of two points for each other plot, and a sample for each line of the legend. -/
structure Shows (drawing : SvgOutline) (figure : TexFigure) (curves : Nat) (axes : List ChartAxis) :
    Prop where
  texts : drawing.texts.map Xml.unescape =
    (figure.title :: axes.map figure.axisLabel ++ figure.legend).map Tex.unescape
  strokes : ∃ crossings samples,
    drawing.strokes =
      (List.zipWith plotStroke? (figure.plots.take curves) curveColours).filterMap id
        ++ crossings ++ samples ∧
    crossings.map (fun stroke => (stroke.width, stroke.points)) =
      (figure.plots.drop curves).map (fun plot => (1, plot.points.length)) ∧
    (∀ plot ∈ figure.plots.drop curves, plot.points.length = 2) ∧
    samples.length = figure.legend.length

end SvgOutline

namespace Chart

variable {t : LatencyTable} {m : Landmarks} {x y : AxisScale} {chart : Chart} {plan : ChartPlan}

/-- The document labels an axis as the drawing does. -/
theorem unescape_axisLabel (chart : Chart) (plan : ChartPlan) (axis : ChartAxis) :
    Tex.unescape ((TexFigure.ofChart chart plan).axisLabel axis) =
      (SvgOutline.axisLabel plan axis).toList := by
  have xLabels : ∀ scale : AxisScale,
      Tex.unescape ("Bytes allocated (" ++ scale.name ++ " scale)").toList =
        ("Bytes allocated (" ++ scale.name ++ " scale)").toList := by
    intro scale
    cases scale <;> decide
  have yLabels : ∀ scale : AxisScale,
      Tex.unescape ("Latency (ns " ++ scale.name ++ " scale)").toList =
        ("Latency (ns " ++ scale.name ++ " scale)").toList := by
    intro scale
    cases scale <;> decide
  cases axis with
  | horizontal => exact xLabels plan.xScale
  | vertical => exact yLabels plan.yScale

/-- A legend has six lines at most, for two curves and four landmarks. -/
theorem legendLines_le (made : (ofTable t m x y).result = .ok chart) : chart.legendLines ≤ 6 := by
  obtain ⟨curves, landmarks, -⟩ := ofTable_eq_ok made
  have four : chart.landmarks.length ≤ 4 := by
    rw [landmarks]
    exact List.length_filter_le _ _
  have two : chart.curves.length = 2 := by
    rw [curves]
    rfl
  unfold legendLines
  omega

/-- The texts of the drawing are the title, the labels of the axes that there is room for, and the
legend of the document. -/
theorem texts_shown (made : (ofTable t m x y).result = .ok chart) (plan : ChartPlan)
    (layout : ChartLayout) :
    (SvgOutline.ofChart chart plan layout).texts.map Xml.unescape =
      ((TexFigure.ofChart chart plan).title
        :: layout.labelled.map (TexFigure.ofChart chart plan).axisLabel
        ++ (TexFigure.ofChart chart plan).legend).map Tex.unescape := by
  have title : Tex.unescape (TexFigure.ofChart chart plan).title = plan.title.toList :=
    Tex.unescape_escape _
  rw [List.map_append, List.map_cons, List.map_map, title,
    TexFigure.unescape_legend_ofChart made plan]
  unfold SvgOutline.ofChart
  simp [Function.comp_def, Xml.unescape_escape, unescape_axisLabel]

/-- The plots of a figure are those of the curves, followed by those of the landmarks. -/
theorem plots_ofChart (made : (ofTable t m x y).result = .ok chart) (plan : ChartPlan) :
    (TexFigure.ofChart chart plan).plots.take chart.curves.length =
        List.zipWith TexFigure.curvePlot chart.curves TexFigure.curveColours ∧
      (TexFigure.ofChart chart plan).plots.drop chart.curves.length =
        chart.landmarks.map (TexFigure.landmarkPlot chart.yRange) := by
  obtain ⟨random, sequential, curves⟩ := TexFigure.exists_curves made
  unfold TexFigure.ofChart
  rw [curves]
  exact ⟨rfl, rfl⟩

/-- The drawing shows what the document does, apart from labels that there is no room for. -/
theorem shows_ofChart (made : (ofTable t m x y).result = .ok chart) (plan : ChartPlan)
    (layout : ChartLayout) :
    (SvgOutline.ofChart chart plan layout).Shows (TexFigure.ofChart chart plan)
      chart.curves.length layout.labelled := by
  obtain ⟨curvePlots, landmarkPlots⟩ := plots_ofChart made plan
  obtain ⟨random, sequential, curves⟩ := TexFigure.exists_curves made
  refine ⟨texts_shown made plan layout, chart.landmarks.map SvgOutline.landmarkStroke,
    List.zipWith SvgOutline.legendStroke chart.curves SvgOutline.curveColours
      ++ chart.landmarks.map SvgOutline.landmarkStroke, ?_, ?_, ?_, ?_⟩
  · -- A curve has a line exactly if its plot has points.
    have same : List.zipWith SvgOutline.curveStroke? chart.curves SvgOutline.curveColours =
        List.zipWith SvgOutline.plotStroke?
          (List.zipWith TexFigure.curvePlot chart.curves TexFigure.curveColours)
          SvgOutline.curveColours := by
      rw [curves]
      rfl
    rw [curvePlots, ← same]
    simp only [SvgOutline.ofChart, List.append_assoc]
  · rw [landmarkPlots, List.map_map, List.map_map]
    rfl
  · rw [landmarkPlots]
    intro plot member
    obtain ⟨line, -, rfl⟩ := List.mem_map.1 member
    rfl
  · simp [TexFigure.ofChart, curves, SvgOutline.curveColours]

/-- A chart that is made of a table and has finite ranges, in both formats under one plan. What is
read from the document is what the drawing shows, whenever the drawing is not broken off; and it is
not, if the sides of the image are positions. Then each axis has its label in the drawing, once,
exactly if the image leaves room between its bands or is too small for them. -/
theorem outline_shows_document (t : LatencyTable) (m : Landmarks) (x y : AxisScale) (chart : Chart)
    (plan : ChartPlan) (made : (ofTable t m x y).result = .ok chart)
    (xFinite : chart.xRange.IsFinite) (yFinite : chart.yRange.IsFinite) :
    ∃ figure,
      TexFigure.ofDocument? (TexFigure.ofChart chart { plan with format := .tex }).document =
        some figure ∧
      (∀ drawing, chart.outline { plan with format := .svg } = (drawing, none) →
        ∃ axes, drawing.Shows figure chart.curves.length axes) ∧
      (plan.width.toNat < 2 ^ 31 → plan.height.toNat < 2 ^ 31 →
        ∃ drawing axes, chart.outline { plan with format := .svg } = (drawing, none) ∧
          drawing.Shows figure chart.curves.length axes ∧
          (axes.Perm [.vertical, .horizontal] ↔
            (plan.width.toNat < 40 ∨ 110 < plan.width.toNat) ∧
              (plan.height.toNat < 72 ∨ 122 < plan.height.toNat))) := by
  have writable := TexFigure.isWritable_ofChart made xFinite yFinite { plan with format := .tex }
  have same : TexFigure.ofChart chart { plan with format := .tex } =
      TexFigure.ofChart chart { plan with format := .svg } := rfl
  refine ⟨_, TexFigure.ofDocument?_document writable, ?_, ?_⟩
  · intro drawing drawn
    obtain ⟨layout, rfl⟩ := exists_layout_of_outline drawn
    rw [same]
    exact ⟨_, shows_ofChart made _ layout⟩
  · intro hw hh
    rw [same]
    exact ⟨_, _, outline_eq hw hh xFinite yFinite (legendLines_le made), shows_ofChart made _ _,
      ChartLayout.labelled_ofSides plan.width.toNat plan.height.toNat⟩

/-- An image of usual size: both axes have their labels. -/
theorem outline_shows_oneRow :
    ∃ chart figure drawing axes,
      (ofTable TexFigure.oneRow (Landmarks.ofSizes {}) .log .log).result = .ok chart ∧
      TexFigure.ofDocument?
          (TexFigure.ofChart chart ⟨"o", .tex, .log, .log, "50%", 1280, 800⟩).document =
        some figure ∧
      chart.outline ⟨"o", .svg, .log, .log, "50%", 1280, 800⟩ = (drawing, none) ∧
      drawing.Shows figure chart.curves.length axes ∧ axes.Perm [.vertical, .horizontal] := by
  obtain ⟨chart, made, xFinite, yFinite⟩ := TexFigure.exists_chart_oneRow
  obtain ⟨figure, read, -, small⟩ := outline_shows_document TexFigure.oneRow (Landmarks.ofSizes {})
    .log .log chart ⟨"o", .tex, .log, .log, "50%", 1280, 800⟩ made xFinite yFinite
  obtain ⟨drawing, axes, drawn, shows, labelled⟩ := small (by decide) (by decide)
  exact ⟨chart, figure, drawing, axes, made, read, drawn, shows, labelled.2 (by decide)⟩

/-- A plan of an image that is no wider than its margins and the band at its left. -/
def narrow : ChartPlan := ⟨"o", .svg, .log, .log, "T", 110, 800⟩

/-- The narrow drawing has no label of the horizontal axis. -/
theorem texts_narrow (made : (ofTable TexFigure.oneRow (Landmarks.ofSizes {}) .log .log).result =
      .ok chart) :
    (SvgOutline.ofChart chart narrow (ChartLayout.ofSides 110 800)).texts.map Xml.unescape =
      ["T", "Latency (ns log scale)", "Random access", "Sequential access", "L1 (128 KiB)",
        "L2 (1 MiB)", "L3 (6 MiB)", "PT Evic. Thres."].map String.toList := by
  obtain ⟨random, sequential, curves⟩ := TexFigure.exists_curves made
  have landmarks : chart.landmarks.map Landmark.label =
      ["L1 (128 KiB)", "L2 (1 MiB)", "L3 (6 MiB)", "PT Evic. Thres."] := by
    rw [(ofTable_eq_ok made).2.1]
    decide +kernel
  have labels : (ChartLayout.ofSides 110 800).labelled = [.vertical] := by decide
  have vertical := unescape_axisLabel chart narrow .vertical
  have title : Tex.unescape (TexFigure.ofChart chart narrow).title = "T".toList :=
    Tex.unescape_escape _
  rw [texts_shown made, List.map_append, TexFigure.unescape_legend_ofChart made, labels, curves,
    landmarks, List.map_cons, List.map_singleton, List.map_singleton, title, vertical]
  rfl

/-- A narrow image has no room for the label of the horizontal axis, which the document of the same
chart has. -/
theorem outline_without_label :
    ∃ chart figure drawing,
      (ofTable TexFigure.oneRow (Landmarks.ofSizes {}) .log .log).result = .ok chart ∧
      chart.xRange.IsFinite ∧ chart.yRange.IsFinite ∧
      TexFigure.ofDocument? (TexFigure.ofChart chart { narrow with format := .tex }).document =
        some figure ∧
      chart.outline { narrow with format := .svg } = (drawing, none) ∧
      Tex.unescape figure.xLabel ∉ drawing.texts.map Xml.unescape := by
  obtain ⟨chart, made, xFinite, yFinite⟩ := TexFigure.exists_chart_oneRow
  refine ⟨chart, _, _, made, xFinite, yFinite,
    TexFigure.ofDocument?_document (TexFigure.isWritable_ofChart made xFinite yFinite _),
    outline_eq (by decide) (by decide) xFinite yFinite (legendLines_le made), ?_⟩
  have horizontal := unescape_axisLabel chart { narrow with format := .tex } .horizontal
  intro member
  have member : Tex.unescape ((TexFigure.ofChart chart { narrow with format := .tex }).axisLabel
      .horizontal) ∈ (SvgOutline.ofChart chart narrow (ChartLayout.ofSides 110 800)).texts.map
        Xml.unescape := member
  rw [texts_narrow made, horizontal] at member
  revert member
  decide

end Chart

end AccessLatency
