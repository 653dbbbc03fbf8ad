import AccessLatency.Program.Benchmark
import AccessLatency.Proofs.Benchmark.Accounting
import AccessLatency.Proofs.Benchmark.Charted
import AccessLatency.Proofs.Files.Place
import Mathlib.Tactic

/-!
# What is left of a run in its file

The benchmark program takes every row, so its run ends early only if memory is not granted. Whether
it ends early or not, the file it is told to write holds the header, if one is asked for, and the row
of each size before the first whose memory is not granted: `folders_runOn`. With the account of runs
to any receiver this makes `sweep_accounts`.
-/

set_option autoImplicit false

namespace AccessLatency

namespace BenchmarkPlan

variable {hosts : UInt64 → Host} {huge : Bool}

/-- Whether the memory of a size is granted by the host that the size finds. -/
def granted (hosts : UInt64 → Host) (huge : Bool) (size : UInt64) : Bool :=
  ((hosts size).refusal? huge size).isNone

/-- The receiver that takes every row, the last in front. -/
def collector : Receiver (List LatencyRow) := fun rows row => (row :: rows, .ok ())

/-- The rows of a benchmark on a machine that changes, and their number or the first fault. -/
def collectOn (p : BenchmarkPlan) (hosts : UInt64 → Host) :
    List LatencyRow × Except BenchmarkFault Nat :=
  ((p.report hosts collector []).1.reverse, (p.report hosts collector []).2)

/-- On a machine that stays the same, the rows of a run are those it collects. -/
theorem collect_eq_collectOn (p : BenchmarkPlan) (host : Host) :
    p.collect host = p.collectOn fun _ => host := by
  unfold collect collectOn
  rw [run_eq_report]
  rfl

/-- A receiver that takes every row is handed those of the sizes before the first whose memory is
not granted. -/
theorem reportOver_collector {sizes : List UInt64} (words : ∀ size ∈ sizes, Host.wordSize ≤ size)
    (rows : List LatencyRow) (count : Nat) :
    (reportOver hosts huge collector rows count sizes).1 =
      (rowsOf hosts (sizes.takeWhile (granted hosts huge))).reverse ++ rows := by
  induction sizes generalizing rows count with
  | nil => rfl
  | cons size rest ih =>
    rw [reportOver_cons (words size (by simp)), List.takeWhile_cons]
    unfold faultOf?
    cases memory : (hosts size).refusal? huge size with
    | some why =>
      have refused : granted hosts huge size = false := by simp [granted, memory]
      rw [refused]
      rfl
    | none =>
      have given : granted hosts huge size = true := by simp [granted, memory]
      have later := ih (fun other member => words other (List.mem_cons_of_mem size member))
        ((hosts size).row size :: rows) (count + 1)
      rw [given, if_pos rfl]
      simp only [collector, later]
      simp [rowsOf]

/-- The rows of a run are those of the sizes in front of the first one that is refused. -/
theorem rows_collectOn (p : BenchmarkPlan) (hosts : UInt64 → Host) :
    (p.collectOn hosts).1 = rowsOf hosts (p.sizes.takeWhile (granted hosts p.hugePages)) := by
  unfold collectOn report
  rw [reportOver_collector fun _ member => wordSize_le member, List.append_nil, List.reverse_reverse]

end BenchmarkPlan

namespace BenchmarkArguments

open BenchmarkPlan

/-- Run the benchmark on a machine that changes from one size to the next. -/
def runOn (a : BenchmarkArguments) (hosts : UInt64 → Host) (folders : Folders) : BenchmarkRun :=
  match a.plan with
  | .error fault => ⟨folders, "", Outcome.fail fault⟩
  | .ok p => a.deliver folders (p.collectOn hosts).1 (p.collectOn hosts).2

/-- A command line is run on a machine that stays the same as on one that changes. -/
theorem run_eq_runOn (a : BenchmarkArguments) (host : Host) (folders : Folders) :
    a.run host folders = a.runOn (fun _ => host) folders := by
  unfold run runOn
  cases a.plan with
  | error fault => rfl
  | ok p =>
    dsimp only
    rw [collect_eq_collectOn]

/-- The file that the rows go to holds one for each size before the first whose memory is not
granted; nothing else changes. -/
theorem folders_runOn {a : BenchmarkArguments} {p : BenchmarkPlan} {hosts : UInt64 → Host}
    {folders : Folders} {path : String} {place : Place} (plan : a.plan = .ok p)
    (output : a.output = some path)
    (opens : FileTree.target folders path.toList = .ok place) (other : Place) :
    (a.runOn hosts folders).folders.nodeAt other =
      if other = place then
        some (.file (.text (LatencyTable.toText a.header
          ⟨rowsOf hosts (p.sizes.takeWhile (granted hosts p.hugePages))⟩)))
      else folders.nodeAt other := by
  unfold runOn
  rw [plan]
  dsimp only
  rw [rows_collectOn]
  unfold deliver Folders.writeFile FileTree.write
  dsimp only
  rw [output]
  dsimp only
  rw [opens]
  exact FileTree.nodeAt_put folders place other _

end BenchmarkArguments

namespace BenchmarkPlan

/-- The account of a sweep, on a machine that may refuse the memory of any sizes, and to a receiver
that may refuse any rows. The receiver is handed one row for each size, in order, up to the first
that something goes wrong at; its own row is handed over if it is the row that is refused. The sweep
returns the number of sizes if nothing goes wrong, and the first fault otherwise; no size is left out
for being too small. So the file that the benchmark program is told to write, if it can be opened,
holds the header, if there is one, and one row for each size before the first whose memory is not
granted. -/
theorem sweep_accounts {σ : Type} (p : BenchmarkPlan) (hosts : UInt64 → Host)
    (receive : Receiver σ) (state : σ) :
    (∃ handed ending,
      p.report hosts receive.recorded (state, []) = ((receive.after state handed, handed), ending) ∧
        p.report hosts receive state = (receive.after state handed, ending) ∧
        Accounts hosts p.hugePages receive state p.sizes handed ending) ∧
      (∀ size ∈ p.sizes, ∀ huge, (hosts size).measure size huge ≠ .ok none) ∧
      (∀ (a : BenchmarkArguments) (folders : Folders) (path : String) (place : Place),
        a.plan = .ok p → a.output = some path →
          FileTree.target folders path.toList = .ok place → ∀ other,
          (a.runOn hosts folders).folders.nodeAt other =
            if other = place then
              some (.file (.text (LatencyTable.toText a.header
                ⟨rowsOf hosts (p.sizes.takeWhile (granted hosts p.hugePages))⟩)))
            else folders.nodeAt other) ∧
      (∀ host sink, p.run host sink state =
        p.report (fun _ => host) (Receiver.ofSink sink) state) ∧
      ∀ (a : BenchmarkArguments) (host : Host) (folders : Folders),
        a.run host folders = a.runOn (fun _ => host) folders := by
  refine ⟨exists_account p hosts receive state, ?_, ?_,
    fun host sink => run_eq_report p host sink state, BenchmarkArguments.run_eq_runOn⟩
  · intro size member huge
    rw [Host.measure_of_word (wordSize_le member)]
    split <;> rintro ⟨⟩
  · intro a folders path place plan output opens other
    exact BenchmarkArguments.folders_runOn plan output opens other

/-- A machine on which the memory of one size is granted and that of no other. -/
def grantsOnly (size : UInt64) : UInt64 → Host := fun other =>
  { steadyHost with grants := fun _ _ => other == size }

/-- A command line for two sizes, with the rows to go to a file under a header. -/
def toRowsFile : BenchmarkArguments :=
  { limit := 250, factor := Binary64.ofNat 2, repeats := 1, output := some "rows.csv", header := true }

/-- A plan of two sizes of which the second is refused: its row is missing, and the file keeps the
header and the row of the first. -/
theorem sweep_accounts_doubling :
    doubling.report (grantsOnly 100) collector.recorded ([], []) =
        (([steadyHost.row 100], [steadyHost.row 100]), .error (.allocation 200 .exhausted)) ∧
      (toRowsFile.runOn (grantsOnly 100) ⟨[], []⟩).folders.nodeAt ["rows.csv".toList] =
        some (.file (.text (LatencyTable.toText true ⟨[steadyHost.row 100]⟩))) := by
  have planned : toRowsFile.plan = .ok doubling := by decide +kernel
  have opens : FileTree.target (⟨[], []⟩ : Folders) "rows.csv".toList = .ok ["rows.csv".toList] := by
    decide +kernel
  obtain ⟨⟨handed, ending, recorded, -, accounts⟩, -, written, -, -⟩ :=
    sweep_accounts doubling (grantsOnly 100) collector []
  have first : FirstFault (grantsOnly 100) doubling.hugePages collector [] doubling.sizes 1
      (.allocation 200 .exhausted) := by
    rw [sizes_doubling]
    refine ⟨rfl, ?_⟩
    intro j before
    obtain rfl : j = 0 := by omega
    rfl
  have ends : ending = .error (.allocation 200 .exhausted) := (accounts.failure _).2 ⟨1, first⟩
  have rows : handed = [steadyHost.row 100] := by
    rw [accounts.handedFirst 1 _ first, sizes_doubling]
    rfl
  refine ⟨?_, ?_⟩
  · rw [recorded, ends, rows]
    rfl
  · rw [written toRowsFile ⟨[], []⟩ "rows.csv" _ planned rfl opens, if_pos rfl, sizes_doubling]
    rfl

end BenchmarkPlan

end AccessLatency
