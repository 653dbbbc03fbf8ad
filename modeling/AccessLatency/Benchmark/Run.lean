import AccessLatency.Benchmark.Plan
import AccessLatency.Benchmark.Walk
import AccessLatency.LatencyTable.Basic

/-!
# Running a benchmark

What the machine contributes to a run is a `Host`: what it answers to requests for memory, and how
long the loops of a walk take on it. All else is settled here: which arrays are measured, what each is
given, and what becomes of the rows. Rows go to a sink as soon as they are measured; the sink may
refuse one, and the first fault of any kind ends the run.
-/

set_option autoImplicit false

namespace AccessLatency

/-- A machine, as far as a benchmark depends on it. -/
structure Host where
  grants : Bool → UInt64 → Mapping.Answer
  timing : AccessPattern → UInt64 → Timing

namespace Host

/-- The bytes of a machine word. -/
def wordSize : UInt64 := 8

/-- Measure an array of a given size; one that holds no word is left out. -/
def measure (host : Host) (size : UInt64) (huge : Bool) :
    Except BenchmarkFault (Option LatencyRow) :=
  let words := size / wordSize
  if words = 0 then .ok none
  else
    match Mapping.allocate (host.grants huge) words wordSize.toNat huge with
    | .error why => .error (.allocation size why)
    | .ok _ =>
      .ok (some
        { size
          random := (host.timing .random size).latency
          sequential := (host.timing .sequential size).latency })

end Host

namespace BenchmarkPlan

variable {σ : Type}

/-- Measure arrays from a given size on, handing the rows to a sink: what becomes of the sink, and
the number of rows or the first fault. -/
def runFrom (p : BenchmarkPlan) (host : Host) (sink : σ → LatencyRow → Except SinkFault σ)
    (state : σ) (count : Nat) (size : UInt64) : σ × Except BenchmarkFault Nat :=
  if h : size < p.limit then
    have := remaining_lt p.factor h
    match host.measure size p.hugePages with
    | .error fault => (state, .error fault)
    | .ok none => runFrom p host sink state count (successor p.factor size)
    | .ok (some row) =>
      match sink state row with
      | .error why => (state, .error (.sink why))
      | .ok state => runFrom p host sink state (count + 1) (successor p.factor size)
  else (state, .ok count)
termination_by p.limit.toNat - size.toNat

/-- Run a benchmark. -/
def run (p : BenchmarkPlan) (host : Host) (sink : σ → LatencyRow → Except SinkFault σ) (state : σ) :
    σ × Except BenchmarkFault Nat :=
  p.runFrom host sink state 0 firstSize

/-- The rows of a benchmark whose sink takes every row, and its number of rows or first fault. -/
def collect (p : BenchmarkPlan) (host : Host) : List LatencyRow × Except BenchmarkFault Nat :=
  let (reversed, ending) := p.run host (fun rows row => .ok (row :: rows)) []
  (reversed.reverse, ending)

end BenchmarkPlan

end AccessLatency
