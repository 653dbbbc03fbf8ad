import AccessLatency.Machine.Cpuid
import AccessLatency.Plot.Drawing
import AccessLatency.Plot.SettingsJson

/-!
# Plotting

`PlotSettings.plot` goes from settings to a written chart: the settings are checked, the table is
read, the chart is made and drawn. The first step that fails ends it, and only the drawing changes
the folders.
-/

set_option autoImplicit false

namespace AccessLatency

namespace LatencyTable

/-- Read the table in a file. -/
def load (folders : Folders) (path : String) : Outcome PlotFault LatencyTable := do
  let text ← Outcome.ofExcept ((Folders.readText folders path).mapError (PlotFault.file path))
  let table ← (LatencyTable.read text.toList).mapError PlotFault.table
  Outcome.record .info ("Loaded " ++ toString table.rows.length ++ " rows from " ++ path)
  return table

end LatencyTable

/-- What a plot leaves behind: the folders, and how it ends. -/
structure PlotRun (α : Type) where
  folders : Folders
  outcome : Outcome PlotFault α

namespace PlotRun

variable {α β : Type}

/-- The same run with another result. -/
def map (f : α → β) (run : PlotRun α) : PlotRun β :=
  ⟨run.folders, run.outcome.bind fun a => Outcome.ok (f a)⟩

/-- A step that changes no folders, and the run that follows if it succeeds. -/
def between (folders : Folders) (first : Outcome PlotFault α) (next : α → PlotRun β) : PlotRun β :=
  match first.result with
  | .error _ => ⟨folders, first.bind fun a => (next a).outcome⟩
  | .ok a => ⟨(next a).folders, first.bind fun a => (next a).outcome⟩

end PlotRun

namespace ChartPlan

/-- Make the chart of a table and write it. -/
def render (plan : ChartPlan) (table : LatencyTable) (landmarks : Landmarks)
    (typesetter : Typesetter) (folders : Folders) : PlotRun Unit :=
  PlotRun.between folders
    ((Chart.ofTable table landmarks plan.xScale plan.yScale).mapError PlotFault.chart)
    fun chart =>
      let (after, drawn) := chart.draw plan typesetter folders
      ⟨after, (Outcome.ofExcept drawn).bind fun _ =>
        Outcome.record .info ("Wrote " ++ plan.output)⟩

end ChartPlan

namespace PlotSettings

/-- Read the settings in a file. -/
def load (folders : Folders) (path : String) : Outcome PlotFault PlotSettings := do
  let text ← Outcome.ofExcept ((Folders.readText folders path).mapError (PlotFault.file path))
  let settings ← Outcome.ofExcept ((PlotSettings.ofText text).mapError PlotFault.settings)
  Outcome.record .debug ("Loaded configuration from " ++ path)
  return settings

/-- Check the settings, read the table and plan its chart. -/
def prepare (s : PlotSettings) (folders : Folders) :
    Outcome PlotFault (LatencyTable × ChartPlan) := do
  Outcome.ofExcept (s.validate.mapError PlotFault.settings)
  let table ← LatencyTable.load folders s.input
  let plan ← Outcome.ofExcept (s.plan.mapError PlotFault.settings)
  return (table, plan)

/-- Plot a table; the result is the path of the chart. -/
def plot (s : PlotSettings) (typesetter : Typesetter) (folders : Folders) : PlotRun String :=
  PlotRun.between folders (s.prepare folders) fun (table, plan) =>
    (plan.render table (Landmarks.ofSizes s.sizes) typesetter folders).map fun _ => plan.output

end PlotSettings

end AccessLatency
