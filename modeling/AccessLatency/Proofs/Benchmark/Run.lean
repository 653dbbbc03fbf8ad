import AccessLatency.Benchmark.Run
import AccessLatency.Proofs.Benchmark.Sizes
import Mathlib.Tactic

/-!
# Runs over the sizes of a plan

A run is a walk over the list of its sizes, `runFrom_eq_runOver`, so that what holds of runs is
shown by induction on that list. On a machine that serves a plan, which grants the memory of all its
arrays, every size gives its row, and a sink that takes every row is handed all of them in order.
-/

set_option autoImplicit false

namespace AccessLatency

namespace Host

/-- The row of an array of a given size. -/
def row (host : Host) (size : UInt64) : LatencyRow :=
  { size
    random := (host.timing .random size).latency
    sequential := (host.timing .sequential size).latency }

/-- Whether a machine grants the memory of an array of a given size. -/
def Allocates (host : Host) (huge : Bool) (size : UInt64) : Prop :=
  ∃ bytes, Mapping.allocate (host.grants huge) (size / wordSize) wordSize.toNat huge = .ok bytes

/-- A size of a word or more holds a word. -/
theorem words_ne_zero {size : UInt64} (word : wordSize ≤ size) : size / wordSize ≠ 0 := by
  rw [ne_eq, ← UInt64.toNat_inj, UInt64.toNat_div]
  rw [UInt64.le_iff_toNat_le] at word
  have pos : 0 < wordSize.toNat := by decide
  have : 0 < size.toNat / wordSize.toNat := Nat.div_pos word pos
  exact this.ne'

/-- A size of a word or more whose memory is granted gives its row. -/
theorem measure_eq_row {host : Host} {huge : Bool} {size : UInt64} (word : wordSize ≤ size)
    (allocates : host.Allocates huge size) :
    host.measure size huge = .ok (some (host.row size)) := by
  obtain ⟨bytes, allocated⟩ := allocates
  unfold measure
  dsimp only
  rw [if_neg (words_ne_zero word), allocated]
  rfl

end Host

namespace BenchmarkPlan

variable {σ : Type}

/-- Measure arrays of the given sizes, handing the rows to a sink. -/
def runOver (host : Host) (huge : Bool) (sink : σ → LatencyRow → Except SinkFault σ) (state : σ)
    (count : Nat) : List UInt64 → σ × Except BenchmarkFault Nat
  | [] => (state, .ok count)
  | size :: rest =>
    match host.measure size huge with
    | .error fault => (state, .error fault)
    | .ok none => runOver host huge sink state count rest
    | .ok (some row) =>
      match sink state row with
      | .error why => (state, .error (.sink why))
      | .ok state => runOver host huge sink state (count + 1) rest

/-- A run from a size on is a run over the sizes from it on. -/
theorem runFrom_eq_runOver (p : BenchmarkPlan) (host : Host)
    (sink : σ → LatencyRow → Except SinkFault σ) (state : σ) (count : Nat) (size : UInt64) :
    p.runFrom host sink state count size =
      runOver host p.hugePages sink state count (p.sizesFrom size) := by
  induction size using sizesFrom.induct p generalizing state count with
  | case1 size h _ ih =>
    rw [runFrom, dif_pos h, sizesFrom_of_lt h, runOver]
    cases host.measure size p.hugePages with
    | error fault => rfl
    | ok measured =>
      cases measured with
      | none => exact ih state count
      | some row =>
        dsimp only
        cases sink state row with
        | error why => rfl
        | ok state => exact ih state (count + 1)
  | case2 size h =>
    rw [runFrom, dif_neg h, sizesFrom_of_not_lt h]
    rfl

/-- A sink that takes every row is handed the rows of all sizes that are measured. -/
theorem runOver_of_measured {host : Host} {huge : Bool} {sizes : List UInt64}
    (measured : ∀ size ∈ sizes, host.measure size huge = .ok (some (host.row size)))
    (take : σ → LatencyRow → σ) (state : σ) (count : Nat) :
    runOver host huge (fun s r => .ok (take s r)) state count sizes =
      ((sizes.map host.row).foldl take state, .ok (count + sizes.length)) := by
  induction sizes generalizing state count with
  | nil => rfl
  | cons size rest ih =>
    have others := ih fun other member => measured other (List.mem_cons_of_mem size member)
    rw [runOver, measured size (by simp)]
    dsimp only
    rw [others, List.map_cons, List.foldl_cons, List.length_cons]
    congr 2
    omega

/-- No size of a plan is too small for a word. -/
theorem wordSize_le {p : BenchmarkPlan} {size : UInt64} (member : size ∈ p.sizes) :
    Host.wordSize ≤ size := by
  have word : Host.wordSize ≤ firstSize := by decide
  exact UInt64.le_trans word (firstSize_le member)

/-- On a machine that grants the memory of all arrays of a plan, a sink that takes every row is
handed one row for each size. -/
theorem run_of_allocates {p : BenchmarkPlan} {host : Host}
    (memory : ∀ size ∈ p.sizes, host.Allocates p.hugePages size) (take : σ → LatencyRow → σ)
    (state : σ) :
    p.run host (fun s r => .ok (take s r)) state =
      ((p.sizes.map host.row).foldl take state, .ok p.sizes.length) := by
  have measured : ∀ size ∈ p.sizes, host.measure size p.hugePages = .ok (some (host.row size)) :=
    fun size member => Host.measure_eq_row (wordSize_le member) (memory size member)
  unfold run
  rw [runFrom_eq_runOver]
  show runOver host p.hugePages _ state 0 p.sizes = _
  rw [runOver_of_measured measured, Nat.zero_add]

end BenchmarkPlan

end AccessLatency
