import AccessLatency.Proofs.Benchmark.Run
import AccessLatency.Proofs.Chart.Landmarks
import AccessLatency.Proofs.Chart.OfTable
import AccessLatency.Proofs.LatencyTable.RoundTrip
import Mathlib.Tactic

/-!
# What a benchmark writes can be charted

The rows that a benchmark writes are read back as a table of all sizes of its plan, in ascending
order, and the chart of that table over a logarithmic axis of sizes leaves nothing out. It takes a
machine that grants the memory of all arrays and on which all latencies are finite. The statements
of the parts meet in `chart_of_run`: the run over the sizes of a plan, the round trip of tables,
the landmarks of a machine, and the chart of a table whose points can all be shown.
-/

set_option autoImplicit false

namespace AccessLatency

/-- A machine that grants the memory of all arrays of a plan, and on which all latencies of it are
finite. -/
structure Host.Serves (host : Host) (p : BenchmarkPlan) : Prop where
  allocates : ∀ size ∈ p.sizes, host.Allocates p.hugePages size
  finite : ∀ size ∈ p.sizes, (host.row size).IsFinite

namespace LatencyTable

/-- The text in front of the first row. -/
def headerText (withHeader : Bool) : String :=
  if withHeader then LatencyRow.header ++ "\n" else ""

/-- A text with a row behind it. -/
def appendLine (text : String) (row : LatencyRow) : String := text ++ row.line

/-- Rows written one behind the other are the text of their table. -/
theorem foldl_appendLine (withHeader : Bool) (rows : List LatencyRow) :
    rows.foldl appendLine (headerText withHeader) = toText withHeader ⟨rows⟩ := by
  have behind : ∀ text : String,
      rows.foldl appendLine text = text ++ String.join (rows.map LatencyRow.line) := by
    induction rows with
    | nil => simp
    | cons row rest ih =>
      intro text
      rw [List.foldl_cons, ih, List.map_cons, String.join_cons, ← String.append_assoc]
      rfl
  exact behind _

end LatencyTable

namespace BenchmarkPlan

/-- A logarithmic axis of sizes shows every point of rows whose sizes are not zero. -/
theorem showsPoint_of_sizes {t : LatencyTable} (sizes : ∀ r ∈ t.rows, r.size ≠ 0) :
    ∀ point ∈ t.randomPoints ++ t.sequentialPoints,
      Chart.showsPoint .log .linear point = true := by
  have size : ∀ r ∈ t.rows, AxisScale.log.shows (LatencyTable.sizeCoordinate r) = true :=
    fun r member => (Binary64.within_ofWord (sizes r member)).zero_lt
  intro point member
  unfold Chart.showsPoint
  rw [Bool.and_eq_true]
  refine ⟨?_, rfl⟩
  rcases List.mem_append.1 member with random | sequential
  · obtain ⟨r, found, rfl⟩ := List.mem_map.1 random
    dsimp only
    exact size r found
  · obtain ⟨r, found, rfl⟩ := List.mem_map.1 sequential
    dsimp only
    exact size r found

/-- The chart of rows that are not empty, over a logarithmic axis of sizes, shows all of them and all
landmarks of a machine with positive sizes. -/
theorem chart_of_rows {t : LatencyTable} (filled : ∀ r ∈ t.rows, r.size ≠ 0) (some : t.rows ≠ [])
    {sizes : MachineSizes} (positive : sizes.IsPositive) :
    ∃ c, (Chart.ofTable t (Landmarks.ofSizes sizes) .log .linear).result = .ok c ∧
      c.dropped = 0 ∧
      c.curves.map Curve.points = [t.randomPoints, t.sequentialPoints] ∧
      c.landmarks = (Landmarks.ofSizes sizes).lines := by
  obtain ⟨c, ok, dropped, curves, landmarks⟩ :=
    Chart.result_ofTable_of_shown (m := Landmarks.ofSizes sizes) some (showsPoint_of_sizes filled)
  refine ⟨c, ok, dropped, curves, ?_⟩
  rw [landmarks, Chart.shownLandmarks_ofSizes positive]

/-- No plan has the size zero. -/
theorem size_ne_zero_of_mem_sizes {p : BenchmarkPlan} {size : UInt64} (h : size ∈ p.sizes) :
    size ≠ 0 := by
  rintro rfl
  have least : firstSize ≤ 0 := firstSize_le h
  exact absurd least (by decide)

/-- On a machine that serves a plan, a run writes a text, under a header or not, that is read as one
row for each size of the plan, in ascending order and without a warning about the order. The chart
of these rows shows all of them and all landmarks, whatever the sizes of the machine are as long as
none is zero; if the plan has no sizes there is no chart. -/
theorem chart_of_run (p : BenchmarkPlan) (host : Host) (serves : host.Serves p)
    (withHeader : Bool) :
    ∃ text t,
      p.run host (fun text row => .ok (LatencyTable.appendLine text row))
          (LatencyTable.headerText withHeader) = (text, .ok p.sizes.length) ∧
        (LatencyTable.read text.toList).result = .ok t ∧
        t.rows = p.sizes.map host.row ∧
        (t.rows.map LatencyRow.size).Pairwise (· < ·) ∧
        ⟨.warn, LatencyTable.unsortedWarning⟩ ∉ (LatencyTable.read text.toList).log ∧
        ∀ sizes : MachineSizes, sizes.IsPositive →
          (p.sizes ≠ [] →
            ∃ c, (Chart.ofTable t (Landmarks.ofSizes sizes) .log .linear).result = .ok c ∧
              c.dropped = 0 ∧
              c.curves.map Curve.points = [t.randomPoints, t.sequentialPoints] ∧
              c.landmarks = (Landmarks.ofSizes sizes).lines) ∧
          (p.sizes = [] →
            (Chart.ofTable t (Landmarks.ofSizes sizes) .log .linear).result =
              .error .emptyTable) := by
  have finite : ∀ r ∈ p.sizes.map host.row, r.IsFinite := by
    intro r member
    obtain ⟨size, found, rfl⟩ := List.mem_map.1 member
    exact serves.finite size found
  have filled : ∀ r ∈ p.sizes.map host.row, r.size ≠ 0 := by
    intro r member
    obtain ⟨size, found, rfl⟩ := List.mem_map.1 member
    exact size_ne_zero_of_mem_sizes found
  have same : (p.sizes.map host.row).map LatencyRow.size = p.sizes := by
    rw [List.map_map]
    exact List.map_id p.sizes
  have read := LatencyTable.read_toText_of_finite withHeader finite
  refine ⟨LatencyTable.toText withHeader ⟨p.sizes.map host.row⟩, ⟨p.sizes.map host.row⟩, ?_, read,
    rfl, ?_, ?_, ?_⟩
  · rw [run_of_allocates serves.allocates, LatencyTable.foldl_appendLine]
  · rw [same]
    exact pairwise_sizes p
  · have ascending : LatencyTable.isSorted ⟨p.sizes.map host.row⟩ = true := by
      unfold LatencyTable.isSorted
      rw [LatencyTable.ascending_iff_pairwise, same]
      exact (pairwise_sizes p).imp UInt64.le_of_lt
    rw [LatencyTable.result_read] at read
    rw [LatencyTable.unsortedWarning_mem_log_iff read, ascending]
    simp
  · intro sizes positive
    refine ⟨?_, ?_⟩
    · intro some
      apply chart_of_rows filled _ positive
      rwa [ne_eq, List.map_eq_nil_iff]
    · intro none
      apply Chart.result_ofTable_nil
      rw [none, List.map_nil]

/-- A plan of two sizes, one twice the other. -/
def doubling : BenchmarkPlan := { limit := 250, factor := Binary64.ofNat 2, repeats := 1 }

/-- A machine that grants all memory and on which every access takes one nanosecond. -/
def steadyHost : Host :=
  { grants := fun _ _ => true, timing := fun _ _ => ⟨Binary64.zero false, Binary64.ofNat 1⟩ }

/-- The plan goes over its first size and twice that. -/
theorem sizes_doubling : doubling.sizes = [100, 200] := by
  have second : successor doubling.factor 100 = 200 := by decide +kernel
  have third : successor doubling.factor 200 = 400 := by decide +kernel
  unfold sizes firstSize
  rw [sizesFrom_of_lt (by decide), second, sizesFrom_of_lt (by decide), third,
    sizesFrom_of_not_lt (by decide)]

/-- The machine grants both sizes and measures a finite latency for each. -/
theorem steadyHost_serves_doubling : steadyHost.Serves doubling := by
  have latency : (Timing.latency ⟨Binary64.zero false, Binary64.ofNat 1⟩).isFinite = true := by
    decide +kernel
  constructor
  · rw [sizes_doubling]
    intro size member
    simp only [List.mem_cons, List.not_mem_nil, or_false] at member
    rcases member with rfl | rfl
    · exact ⟨96, rfl⟩
    · exact ⟨200, rfl⟩
  · intro size _
    unfold LatencyRow.IsFinite Host.row steadyHost
    dsimp only
    exact ⟨latency, latency⟩

/-- The run of a plan of two sizes, written under a header and charted with the usual sizes. -/
theorem chart_of_run_doubling :
    steadyHost.Serves doubling ∧
      ∃ text t c,
        (doubling.run steadyHost (fun text row => .ok (LatencyTable.appendLine text row))
            (LatencyTable.headerText true)).1 = text ∧
          (LatencyTable.read text.toList).result = .ok t ∧
          t.rows = [steadyHost.row 100, steadyHost.row 200] ∧
          (Chart.ofTable t (Landmarks.ofSizes {}) .log .linear).result = .ok c ∧
          c.landmarks.length = 4 := by
  obtain ⟨text, t, run, read, rows, -, -, charted⟩ :=
    chart_of_run doubling steadyHost steadyHost_serves_doubling true
  have positive : MachineSizes.IsPositive {} := by constructor <;> decide
  obtain ⟨c, ok, -, -, landmarks⟩ := (charted {} positive).1 (by rw [sizes_doubling]; decide)
  refine ⟨steadyHost_serves_doubling, text, t, c, ?_, read, ?_, ok, ?_⟩
  · rw [run]
  · rw [rows, sizes_doubling]
    rfl
  · rw [landmarks]
    rfl

end BenchmarkPlan

end AccessLatency
