import AccessLatency.Plot.Run
import Mathlib.Tactic

/-!
# The stages of a plot

A plot succeeds only if each of its stages does: the settings are in order, the table is read, its
chart is planned and made, and the drawing of the chart succeeds. `plot_eq_ok` takes a successful
plot apart into these; its folders are those that the drawing leaves behind.
-/

set_option autoImplicit false

namespace AccessLatency

namespace Outcome

variable {ε ε' α β : Type}

/-- Two steps succeed exactly if the first does, and the second does with its result. -/
theorem result_bind_eq_ok_iff {o : Outcome ε α} {next : α → Outcome ε β} {b : β} :
    (o.bind next).result = .ok b ↔ ∃ a, o.result = .ok a ∧ (next a).result = .ok b := by
  cases h : o.result with
  | error e =>
    rw [result_bind_error h]
    simp
  | ok a =>
    rw [result_bind_ok h]
    simp

/-- Faults may be put in other words without a change to what succeeds. -/
theorem result_mapError_eq_ok_iff {o : Outcome ε α} {f : ε → ε'} {a : α} :
    (o.mapError f).result = .ok a ↔ o.result = .ok a := by
  unfold mapError
  cases o.result <;> simp

/-- A fault that is put in other words is still a fault. -/
theorem result_mapError_of_error {o : Outcome ε α} {f : ε → ε'} {e : ε} (h : o.result = .error e) :
    (o.mapError f).result = .error (f e) := by
  unfold mapError
  rw [h]

end Outcome

/-- A result succeeds whatever its faults are turned into. -/
theorem mapError_eq_ok_iff {ε ε' α : Type} {r : Except ε α} {f : ε → ε'} {a : α} :
    r.mapError f = .ok a ↔ r = .ok a := by
  cases r <;> simp [Except.mapError]

namespace PlotRun

variable {α β : Type}

/-- A first step that fails ends the run, and leaves the folders as they are. -/
theorem between_of_error (folders : Folders) {first : Outcome PlotFault α} (next : α → PlotRun β)
    {fault : PlotFault} (h : first.result = .error fault) :
    (between folders first next).outcome.result = .error fault ∧
      (between folders first next).folders = folders := by
  unfold between
  rw [h]
  exact ⟨Outcome.result_bind_error h, rfl⟩

/-- A first step that succeeds hands over to the next. -/
theorem between_of_ok (folders : Folders) {first : Outcome PlotFault α} (next : α → PlotRun β)
    {a : α} (h : first.result = .ok a) :
    (between folders first next).outcome.result = (next a).outcome.result ∧
      (between folders first next).folders = (next a).folders := by
  unfold between
  rw [h]
  exact ⟨Outcome.result_bind_ok h, rfl⟩

/-- A run that succeeds has a first step that does, and ends as the next step ends. -/
theorem between_eq_ok {folders : Folders} {first : Outcome PlotFault α} {next : α → PlotRun β}
    {b : β} (h : (between folders first next).outcome.result = .ok b) :
    ∃ a, first.result = .ok a ∧ (next a).outcome.result = .ok b ∧
      (between folders first next).folders = (next a).folders := by
  cases result : first.result with
  | error e =>
    rw [(between_of_error folders next result).1] at h
    cases h
  | ok a =>
    obtain ⟨same, left⟩ := between_of_ok folders next result
    exact ⟨a, rfl, same ▸ h, left⟩

/-- A run whose result is changed succeeds only if the run itself does. -/
theorem map_eq_ok {run : PlotRun α} {f : α → β} {b : β}
    (h : (run.map f).outcome.result = .ok b) : ∃ a, run.outcome.result = .ok a ∧ f a = b := by
  obtain ⟨a, first, second⟩ := Outcome.result_bind_eq_ok_iff.1 h
  cases second
  exact ⟨a, first, rfl⟩

end PlotRun

/-- A rendering that succeeds made a chart, and the drawing of it succeeded. -/
theorem ChartPlan.render_eq_ok {plan : ChartPlan} {table : LatencyTable} {landmarks : Landmarks}
    {typesetter : Typesetter} {folders : Folders}
    (h : (plan.render table landmarks typesetter folders).outcome.result = .ok ()) :
    ∃ chart : Chart,
      (Chart.ofTable table landmarks plan.xScale plan.yScale).result = .ok chart ∧
      (chart.draw plan typesetter folders).2 = .ok () ∧
      (plan.render table landmarks typesetter folders).folders =
        (chart.draw plan typesetter folders).1 := by
  obtain ⟨chart, made, drawn, after⟩ := PlotRun.between_eq_ok h
  obtain ⟨_, finished, -⟩ := Outcome.result_bind_eq_ok_iff.1 drawn
  exact ⟨chart, Outcome.result_mapError_eq_ok_iff.1 made, finished, after⟩

namespace PlotSettings

/-- The stages in front of the drawing: the settings are in order, the table is read, and its chart
is planned. -/
theorem prepare_eq_ok {s : PlotSettings} {folders : Folders} {table : LatencyTable}
    {plan : ChartPlan} (h : (s.prepare folders).result = .ok (table, plan)) :
    s.validate = .ok () ∧ (LatencyTable.load folders s.input).result = .ok table ∧
      s.plan = .ok plan := by
  obtain ⟨_, checked, h⟩ := Outcome.result_bind_eq_ok_iff.1 h
  obtain ⟨read, loaded, h⟩ := Outcome.result_bind_eq_ok_iff.1 h
  obtain ⟨made, planned, h⟩ := Outcome.result_bind_eq_ok_iff.1 h
  cases h
  exact ⟨mapError_eq_ok_iff.1 checked, loaded, mapError_eq_ok_iff.1 planned⟩

/-- The stages of a plot that succeeds. -/
theorem plot_eq_ok {s : PlotSettings} {typesetter : Typesetter} {folders : Folders} {p : String}
    (h : (s.plot typesetter folders).outcome.result = .ok p) :
    ∃ (table : LatencyTable) (plan : ChartPlan) (chart : Chart),
      s.validate = .ok () ∧ (LatencyTable.load folders s.input).result = .ok table ∧
      s.plan = .ok plan ∧ p = plan.output ∧
      (Chart.ofTable table (Landmarks.ofSizes s.sizes) plan.xScale plan.yScale).result = .ok chart ∧
      (chart.draw plan typesetter folders).2 = .ok () ∧
      (s.plot typesetter folders).folders = (chart.draw plan typesetter folders).1 := by
  obtain ⟨⟨table, plan⟩, prepared, rendered, after⟩ := PlotRun.between_eq_ok h
  obtain ⟨checked, loaded, planned⟩ := prepare_eq_ok prepared
  obtain ⟨_, finished, output⟩ := PlotRun.map_eq_ok rendered
  obtain ⟨chart, made, drawn, left⟩ := ChartPlan.render_eq_ok finished
  exact ⟨table, plan, chart, checked, loaded, planned, output.symm, made, drawn, after.trans left⟩

end PlotSettings

end AccessLatency
