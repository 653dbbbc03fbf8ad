import AccessLatency.CommandLine.BenchmarkArguments
import AccessLatency.LatencyTable.Csv
import AccessLatency.Program.Basic

/-!
# The benchmark program

It reads its command line, runs the benchmark, and writes the rows to a file or prints them. Rows
that were measured before a fault are kept.
-/

set_option autoImplicit false

namespace AccessLatency

/-- What a benchmark leaves behind: the folders, what it prints, and how it ends. -/
structure BenchmarkRun where
  folders : Folders
  output : String
  outcome : Outcome BenchmarkFault Unit

namespace BenchmarkArguments

/-- The plan that the command line gives. -/
def plan (a : BenchmarkArguments) : Except BenchmarkFault BenchmarkPlan :=
  (BenchmarkPlan.make a.limit a.factor a.repeats).map fun p => { p with hugePages := a.hugePages }

/-- How a benchmark ends: with a record of the number of rows, or with a fault. -/
def conclusion : Except BenchmarkFault Nat → Outcome BenchmarkFault Unit
  | .ok count => Outcome.record .info ("Measured " ++ toString count ++ " array sizes")
  | .error fault => Outcome.fail fault

/-- Hand out measured rows: they are written to a file if one is given, and printed otherwise. -/
def deliver (a : BenchmarkArguments) (folders : Folders) (rows : List LatencyRow)
    (ending : Except BenchmarkFault Nat) : BenchmarkRun :=
  let text := LatencyTable.toText a.header ⟨rows⟩
  match a.output with
  | none => ⟨folders, text, conclusion ending⟩
  | some path =>
    match Folders.writeFile folders path (.text text) with
    | .error why => ⟨folders, "", Outcome.fail (.sink (.file why))⟩
    | .ok written => ⟨written, "", conclusion ending⟩

/-- Run the benchmark. -/
def run (a : BenchmarkArguments) (host : Host) (folders : Folders) : BenchmarkRun :=
  match a.plan with
  | .error fault => ⟨folders, "", Outcome.fail fault⟩
  | .ok p =>
    let (rows, ending) := p.collect host
    a.deliver folders rows ending

end BenchmarkArguments

namespace Program

/-- The benchmark program. -/
def benchmark (around : Surroundings) (arguments : List String) : Transcript :=
  match BenchmarkArguments.read BenchmarkArguments.command arguments with
  | .error stop => Transcript.ofStop around stop
  | .ok a =>
    let done := a.run around.host around.folders
    let (status, log) := match done.outcome.result with
      | .ok () => (0, done.outcome.log)
      | .error why => (1, done.outcome.log ++ [Transcript.faultRecord why.message])
    { status, output := done.output, complaint := none
      log := log.filter around.logFilter.keeps
      folders := done.folders }

end Program

end AccessLatency
