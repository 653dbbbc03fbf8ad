import AccessLatency.Proofs.Chart.OfTable
import AccessLatency.Proofs.LatencyTable.Reading
import AccessLatency.Proofs.Plot.Stages
import Mathlib.Tactic

/-!
# The first fault of a plot

Five stages lie in front of the drawing of a plot. The settings are checked, the text of the table
is read from its file, the table is read from the text, and then the table has to have a row and
its chart a point. `FirstFault` says which of them is the first to fail, and with which fault.

A plot with a first fault ends with it and leaves the folders as they are, and a plot without one
is what the drawing of its chart makes of the folders: `plot_stops_at_first_fault`.
-/

set_option autoImplicit false

namespace AccessLatency

namespace LatencyTable

variable {folders : Folders} {path text : String}

/-- A file that cannot be read is the fault of the table. -/
theorem load_of_unread {why : FileFault} (unread : Folders.readText folders path = .error why) :
    (load folders path).result = .error (.file path why) := by
  apply Outcome.result_bind_error
  rw [unread]
  rfl

/-- A text that is no table fails with the fault of its reader. -/
theorem load_of_malformed {why : ReadFault} (found : Folders.readText folders path = .ok text)
    (malformed : ofChars text.toList = .error why) :
    (load folders path).result = .error (.table why) := by
  have first : (Outcome.ofExcept ((Folders.readText folders path).mapError
      (PlotFault.file path))).result = .ok text := mapError_eq_ok_iff.2 found
  refine (Outcome.result_bind_ok first).trans ?_
  apply Outcome.result_bind_error
  apply Outcome.result_mapError_of_error
  rw [result_read, malformed]

/-- A file with the text of a table is read as the table. -/
theorem load_of_parsed {table : LatencyTable} (found : Folders.readText folders path = .ok text)
    (parsed : ofChars text.toList = .ok table) :
    (load folders path).result = .ok table := by
  have first : (Outcome.ofExcept ((Folders.readText folders path).mapError
      (PlotFault.file path))).result = .ok text := mapError_eq_ok_iff.2 found
  have second : ((read text.toList).mapError PlotFault.table).result = .ok table := by
    rw [Outcome.result_mapError_eq_ok_iff, result_read, parsed]
  refine (Outcome.result_bind_ok first).trans ?_
  exact (Outcome.result_bind_ok second).trans rfl

end LatencyTable

namespace PlotSettings

/-! ## The stages -/

/-- The settings are in order, and the file with the table holds a text. -/
def HasText (s : PlotSettings) (folders : Folders) (text : String) : Prop :=
  s.validate = .ok () ∧ Folders.readText folders s.input = .ok text

/-- The settings are in order, and the file with the table holds a text that is a table. -/
def HasTable (s : PlotSettings) (folders : Folders) (table : LatencyTable) : Prop :=
  ∃ text, s.HasText folders text ∧ LatencyTable.ofChars text.toList = .ok table

/-- The fault of the first stage in front of the drawing that fails. -/
inductive FirstFault (s : PlotSettings) (folders : Folders) : PlotFault → Prop where
  | settings {why : Fault} (refused : s.validate = .error why) :
    FirstFault s folders (.settings why)
  | file {why : FileFault} (valid : s.validate = .ok ())
      (unread : Folders.readText folders s.input = .error why) :
    FirstFault s folders (.file s.input why)
  | table {text : String} {why : LatencyTable.ReadFault} (found : s.HasText folders text)
      (malformed : LatencyTable.ofChars text.toList = .error why) :
    FirstFault s folders (.table why)
  | emptyTable {table : LatencyTable} (parsed : s.HasTable folders table)
      (empty : table.rows = []) :
    FirstFault s folders (.chart .emptyTable)
  | nothingToShow {table : LatencyTable} (parsed : s.HasTable folders table)
      (filled : table.rows ≠ [])
      (hidden : ∀ p ∈ table.randomPoints ++ table.sequentialPoints,
        Chart.showsPoint s.xScale s.yScale p = false) :
    FirstFault s folders (.chart .nothingToShow)

variable {s : PlotSettings} {folders : Folders}

/-- All stages are passed by a table with a point that can be shown; else one of them is the first
that is not. -/
theorem firstFault_or_point (s : PlotSettings) (folders : Folders) :
    (∃ fault, s.FirstFault folders fault) ∨
      ∃ table, s.HasTable folders table ∧
        ∃ p ∈ table.randomPoints ++ table.sequentialPoints,
          Chart.showsPoint s.xScale s.yScale p = true := by
  cases valid : s.validate with
  | error why => exact .inl ⟨_, .settings valid⟩
  | ok _ =>
    cases found : Folders.readText folders s.input with
    | error why => exact .inl ⟨_, .file valid found⟩
    | ok text =>
      cases parsed : LatencyTable.ofChars text.toList with
      | error why => exact .inl ⟨_, .table ⟨valid, found⟩ parsed⟩
      | ok table =>
        have has : s.HasTable folders table := ⟨text, ⟨valid, found⟩, parsed⟩
        by_cases empty : table.rows = []
        · exact .inl ⟨_, .emptyTable has empty⟩
        · by_cases shown : ∃ p ∈ table.randomPoints ++ table.sequentialPoints,
            Chart.showsPoint s.xScale s.yScale p = true
          · exact .inr ⟨table, has, shown⟩
          · left
            refine ⟨_, .nothingToShow has empty ?_⟩
            intro p member
            apply Bool.eq_false_iff.2
            intro visible
            exact shown ⟨p, member, visible⟩

/-! ## The stages one after the other -/

/-- Settings that are refused end the preparations. -/
theorem prepare_of_refused {why : Fault} (refused : s.validate = .error why) :
    (s.prepare folders).result = .error (.settings why) := by
  apply Outcome.result_bind_error
  rw [refused]
  rfl

/-- A table that cannot be read ends the preparations, once the settings are in order. -/
theorem prepare_of_not_loaded {fault : PlotFault} (valid : s.validate = .ok ())
    (failed : (LatencyTable.load folders s.input).result = .error fault) :
    (s.prepare folders).result = .error fault := by
  have checked : (Outcome.ofExcept (s.validate.mapError PlotFault.settings)).result = .ok () :=
    mapError_eq_ok_iff.2 valid
  refine (Outcome.result_bind_ok checked).trans ?_
  exact Outcome.result_bind_error failed

/-- Settings that are in order have a plan, and it is on their scales. -/
theorem exists_plan_of_valid (valid : s.validate = .ok ()) :
    ∃ plan, s.plan = .ok plan ∧ plan.xScale = s.xScale ∧ plan.yScale = s.yScale := by
  unfold validate at valid
  unfold plan
  split at valid
  · cases valid
  · split at valid
    · cases valid
    · cases format : formatOf s.outputPath with
      | error fault =>
        rw [format] at valid
        cases valid
      | ok format => exact ⟨_, rfl, rfl, rfl⟩

/-- Once a table is read, its chart is planned with the scales of the settings. -/
theorem prepare_of_table {table : LatencyTable} (parsed : s.HasTable folders table) :
    ∃ plan, s.plan = .ok plan ∧ plan.xScale = s.xScale ∧ plan.yScale = s.yScale ∧
      (s.prepare folders).result = .ok (table, plan) := by
  obtain ⟨text, ⟨valid, found⟩, read⟩ := parsed
  obtain ⟨plan, planned, xScale, yScale⟩ := exists_plan_of_valid valid
  refine ⟨plan, planned, xScale, yScale, ?_⟩
  have checked : (Outcome.ofExcept (s.validate.mapError PlotFault.settings)).result = .ok () :=
    mapError_eq_ok_iff.2 valid
  have made : (Outcome.ofExcept (s.plan.mapError PlotFault.settings)).result = .ok plan :=
    mapError_eq_ok_iff.2 planned
  refine (Outcome.result_bind_ok checked).trans ?_
  refine (Outcome.result_bind_ok (LatencyTable.load_of_parsed found read)).trans ?_
  exact (Outcome.result_bind_ok made).trans rfl

end PlotSettings

/-! ## From the table to the drawing -/

namespace ChartPlan

variable {plan : ChartPlan} {table : LatencyTable} {landmarks : Landmarks}
  (typesetter : Typesetter) (folders : Folders)

/-- A table without a chart ends the rendering, and leaves the folders as they are. -/
theorem render_of_no_chart {why : Chart.Fault}
    (failed : (Chart.ofTable table landmarks plan.xScale plan.yScale).result = .error why) :
    (plan.render table landmarks typesetter folders).outcome.result = .error (.chart why) ∧
      (plan.render table landmarks typesetter folders).folders = folders := by
  apply PlotRun.between_of_error
  exact Outcome.result_mapError_of_error failed

/-- Once the chart is made, the rendering is its drawing. -/
theorem render_of_chart {chart : Chart}
    (made : (Chart.ofTable table landmarks plan.xScale plan.yScale).result = .ok chart) :
    (plan.render table landmarks typesetter folders).outcome.result =
        (chart.draw plan typesetter folders).2 ∧
      (plan.render table landmarks typesetter folders).folders =
        (chart.draw plan typesetter folders).1 := by
  have made : ((Chart.ofTable table landmarks plan.xScale plan.yScale).mapError
      PlotFault.chart).result = .ok chart := Outcome.result_mapError_eq_ok_iff.2 made
  obtain ⟨drawn, left⟩ := PlotRun.between_of_ok folders (fun chart =>
    ⟨(chart.draw plan typesetter folders).1,
      (Outcome.ofExcept (chart.draw plan typesetter folders).2).bind fun _ =>
        Outcome.record .info ("Wrote " ++ plan.output)⟩) made
  refine ⟨drawn.trans ?_, left⟩
  cases (chart.draw plan typesetter folders).2 with
  | error fault => rfl
  | ok _ => rfl

end ChartPlan

namespace PlotSettings

variable {s : PlotSettings} {typesetter : Typesetter} {folders : Folders} {table : LatencyTable}

/-- Preparations that fail end the plot, and leave the folders as they are. -/
theorem plot_of_not_prepared {fault : PlotFault}
    (failed : (s.prepare folders).result = .error fault) :
    (s.plot typesetter folders).outcome.result = .error fault ∧
      (s.plot typesetter folders).folders = folders :=
  PlotRun.between_of_error folders _ failed

/-- A table without a chart ends the plot, and leaves the folders as they are. -/
theorem plot_of_no_chart {why : Chart.Fault} (parsed : s.HasTable folders table)
    (failed : (Chart.ofTable table (Landmarks.ofSizes s.sizes) s.xScale s.yScale).result =
      .error why) :
    (s.plot typesetter folders).outcome.result = .error (.chart why) ∧
      (s.plot typesetter folders).folders = folders := by
  obtain ⟨plan, -, xScale, yScale, prepared⟩ := prepare_of_table parsed
  rw [← xScale, ← yScale] at failed
  obtain ⟨ended, left⟩ := ChartPlan.render_of_no_chart typesetter folders failed
  obtain ⟨result, after⟩ := PlotRun.between_of_ok folders _ prepared
  exact ⟨result.trans (Outcome.result_bind_error ended), after.trans left⟩

/-- Once the chart is made, the plot is its drawing, and returns the path of the output. -/
theorem plot_of_chart {plan : ChartPlan} {chart : Chart}
    (prepared : (s.prepare folders).result = .ok (table, plan))
    (made : (Chart.ofTable table (Landmarks.ofSizes s.sizes) plan.xScale plan.yScale).result =
      .ok chart) :
    (s.plot typesetter folders).outcome.result =
        (chart.draw plan typesetter folders).2.map (fun _ => plan.output) ∧
      (s.plot typesetter folders).folders = (chart.draw plan typesetter folders).1 := by
  obtain ⟨drawn, left⟩ := ChartPlan.render_of_chart typesetter folders made
  obtain ⟨result, after⟩ := PlotRun.between_of_ok folders _ prepared
  refine ⟨result.trans ?_, after.trans left⟩
  cases finished : (chart.draw plan typesetter folders).2 with
  | error fault => exact Outcome.result_bind_error (drawn.trans finished)
  | ok _ => exact Outcome.result_bind_ok (drawn.trans finished)

/-- A plot ends with the fault of the first stage that fails, and then all folders and files are as
before. If no stage in front of the drawing fails, the plot is what the drawing makes of it. -/
theorem plot_stops_at_first_fault (s : PlotSettings) (typesetter : Typesetter)
    (folders : Folders) :
    (∀ fault, s.FirstFault folders fault →
      (s.plot typesetter folders).outcome.result = .error fault ∧
        (s.plot typesetter folders).folders = folders) ∧
    ((∃ fault, s.FirstFault folders fault) ∨
      ∃ (table : LatencyTable) (plan : ChartPlan) (chart : Chart),
        s.HasTable folders table ∧ s.plan = .ok plan ∧
        (Chart.ofTable table (Landmarks.ofSizes s.sizes) plan.xScale plan.yScale).result =
          .ok chart ∧
        (s.plot typesetter folders).outcome.result =
          (chart.draw plan typesetter folders).2.map (fun _ => plan.output) ∧
        (s.plot typesetter folders).folders = (chart.draw plan typesetter folders).1) := by
  constructor
  · intro fault first
    cases first with
    | settings refused => exact plot_of_not_prepared (prepare_of_refused refused)
    | file valid unread =>
      exact plot_of_not_prepared (prepare_of_not_loaded valid (LatencyTable.load_of_unread unread))
    | table found malformed =>
      apply plot_of_not_prepared
      exact prepare_of_not_loaded found.1 (LatencyTable.load_of_malformed found.2 malformed)
    | emptyTable parsed empty =>
      exact plot_of_no_chart parsed (Chart.result_ofTable_nil empty)
    | nothingToShow parsed filled hidden =>
      exact plot_of_no_chart parsed (Chart.result_ofTable_of_hidden filled hidden)
  · rcases firstFault_or_point s folders with failed | ⟨table, parsed, p, member, shown⟩
    · exact .inl failed
    · right
      obtain ⟨plan, planned, xScale, yScale, prepared⟩ := prepare_of_table parsed
      rw [← xScale, ← yScale] at shown
      obtain ⟨chart, made⟩ :=
        Chart.result_ofTable_of_point (m := Landmarks.ofSizes s.sizes) member shown
      exact ⟨table, plan, chart, parsed, planned, made, plot_of_chart prepared made⟩

/-- A folder with a table whose latencies are all negative, and with an earlier chart. -/
def earlierChart : Folders :=
  { working := []
    nodes :=
      [(["in.csv".toList], .file (.text "1000,-1,-2\n")),
       (["in.png".toList], .file (.text "chart"))] }

/-- The table in that folder. -/
def negativeTable : LatencyTable :=
  ⟨[⟨1000, (Binary64.ofNat 1).neg, (Binary64.ofNat 2).neg⟩]⟩

/-- Settings that put the latencies onto a logarithmic axis, in an image of the given width. -/
def onLogScales (input : String) (width : UInt32) : PlotSettings :=
  { input, yScale := .log, width }

/-- Of an empty image and a missing table the image is reported. With both mended, the plot ends at
its last stage, and the earlier chart stays. -/
theorem plot_of_several_faults :
    ((onLogScales "out.csv" 0).plot .working earlierChart).outcome.result =
        .error (.settings (.emptyImage 0 800)) ∧
      (onLogScales "in.csv" 1280).FirstFault earlierChart (.chart .nothingToShow) ∧
      ((onLogScales "in.csv" 1280).plot .working earlierChart).outcome.result =
        .error (.chart .nothingToShow) ∧
      ((onLogScales "in.csv" 1280).plot .working earlierChart).folders.nodeAt
        ["in.png".toList] = some (.file (.text "chart")) := by
  have noImage : (onLogScales "out.csv" 0).FirstFault earlierChart
      (.settings (.emptyImage 0 800)) := .settings (by decide)
  have parsed : (onLogScales "in.csv" 1280).HasTable earlierChart negativeTable :=
    ⟨"1000,-1,-2\n", ⟨by decide, by decide⟩, by decide +kernel⟩
  have noPoint : (onLogScales "in.csv" 1280).FirstFault earlierChart (.chart .nothingToShow) :=
    .nothingToShow parsed (by decide) (by decide +kernel)
  obtain ⟨first, -⟩ := (plot_stops_at_first_fault _ .working earlierChart).1 _ noImage
  obtain ⟨last, left⟩ := (plot_stops_at_first_fault _ .working earlierChart).1 _ noPoint
  refine ⟨first, noPoint, last, ?_⟩
  rw [left]
  decide

end PlotSettings

end AccessLatency
