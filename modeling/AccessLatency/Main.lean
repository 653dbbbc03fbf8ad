import AccessLatency.Program.Plot
import AccessLatency.Program.Benchmark
import AccessLatency.Program.Caches

/-!
# The command line

The first argument names a program, the others are its own. This module fetches what the program may
read, measures what it may ask the machine for, and then carries out its transcript. The drawing of
bitmaps, of vector images and of typeset pages is left to other tools: a transcript says what they
are to show, and only texts are written.
-/

set_option autoImplicit false

namespace AccessLatency

namespace Main

/-- A folder far enough below the root for every path that leads upwards. -/
def workingFolder : Place := List.replicate 64 ['w']

/-- The content of a file of the machine, if it can be read. -/
def fetch? (path : String) : IO (Option FileContent) := do
  try
    let bytes ← IO.FS.readBinFile path
    match String.fromUTF8? bytes with
    | some text => return some (.text text)
    | none => return some (.octets bytes.toList)
  catch _ => return none

/-- Folders with the files of the given paths, as far as they can be read. -/
def fetch (folders : Folders) (paths : List String) : IO Folders :=
  paths.foldlM (fun folders path => do
    match ← fetch? path with
    | some content => return FileTree.putFile folders path.toList content
    | none => return folders) folders

/-- The folders that a plot can read: the file with settings, and then the table they name. -/
def foldersOfPlot (cpu : Cpuid) (arguments : List String) : IO Folders := do
  let bare : Folders := { working := workingFolder, nodes := [] }
  match PlotArguments.read PlotArguments.command arguments with
  | .error _ => return bare
  | .ok a =>
    let withSettings ← fetch bare a.settingsFile.toList
    match (a.settings withSettings cpu).result with
    | .error _ => return withSettings
    | .ok s =>
      let withTable ← fetch withSettings [s.input]
      let target := FileTree.placeOf withTable s.outputPath.toList
      return FileTree.ensureFolders withTable target.dropLast

/-- The mean time of the visits of a loop that starts now. -/
def time {α : Type} (rounds : Nat) (loop : Unit → α) : IO (Binary64 × α) := do
  let start ← IO.monoNanosNow
  let result ← IO.lazyPure loop
  let stop ← IO.monoNanosNow
  return (Binary64.div (Binary64.ofNat (stop - start)) (Binary64.ofNat rounds), result)

/-- Time a walk over an array of a given size. -/
def timing (pattern : AccessPattern) (size repeats : UInt64) : IO Timing := do
  let words := (size / Host.wordSize).toNat
  let walk : Walk :=
    { pattern, repeats, array := (Array.range words).map UInt64.ofNat, mask := 0 }
  let (baseline, trace) ← time walk.rounds fun _ => walk.baselineLoop
  let (access, _) ← time walk.rounds fun _ => walk.accessLoop trace.register
  return ⟨baseline, access⟩

/-- The times of all walks of a benchmark. -/
def timings (p : BenchmarkPlan) : IO (List ((AccessPattern × UInt64) × Timing)) :=
  (p.sizes.flatMap fun size => [(AccessPattern.random, size), (.sequential, size)]).mapM
    fun walk => return (walk, ← timing walk.1 walk.2 p.repeats)

/-- The machine as a benchmark finds it. -/
def hostOfBenchmark (arguments : List String) : IO Host := do
  let measured ← match BenchmarkArguments.read BenchmarkArguments.command arguments with
    | .error _ => pure []
    | .ok a =>
      match a.plan with
      | .error _ => pure []
      | .ok p => timings p
  return {
    grants := fun huge _ => !huge
    timing := fun pattern size =>
      (measured.lookup (pattern, size)).getD ⟨Binary64.zero false, Binary64.zero false⟩ }

/-- Carry out a transcript. -/
def carryOut (before : Folders) (done : Transcript) : IO UInt32 := do
  for line in done.errorLines do
    match line with
    | .record level text => IO.eprintln (level.name ++ ": " ++ text)
    | .other text => IO.eprintln text
  for (path, content) in FileTree.changedFiles before done.folders do
    match content.asText with
    | .ok text => IO.FS.writeFile (String.ofList path) text
    | .error _ => IO.eprintln ("not drawn: " ++ String.ofList path)
  IO.print done.output
  return UInt32.ofNat done.status

/-- Run one of the programs on this machine. -/
def run (name : String) (arguments : List String) : IO UInt32 := do
  let cpu : Cpuid := {}
  let bare : Folders := { working := workingFolder, nodes := [] }
  let idle : Host :=
    { grants := fun _ _ => false, timing := fun _ _ => ⟨Binary64.zero false, Binary64.zero false⟩ }
  let around (folders : Folders) (host : Host) : Surroundings :=
    { folders, cpu, host, typesetter := .working, logFilter := LogFilter.standard }
  match name with
  | "latency_plot" =>
    let folders ← foldersOfPlot cpu arguments
    carryOut folders (Program.plot (around folders idle) arguments)
  | "memory_latency" =>
    let host ← hostOfBenchmark arguments
    let folders := match BenchmarkArguments.read BenchmarkArguments.command arguments with
      | .ok a => a.output.toList.foldl (fun folders path =>
          FileTree.ensureFolders folders (FileTree.placeOf folders path.toList).dropLast) bare
      | .error _ => bare
    carryOut folders (Program.benchmark (around folders host) arguments)
  | "cache_info" => carryOut bare (Program.caches (around bare idle) arguments)
  | _ =>
    IO.eprintln "the first argument is one of latency_plot, memory_latency and cache_info"
    return 2

end Main

end AccessLatency

/-- Run the program that the first argument names. -/
def main (arguments : List String) : IO UInt32 :=
  match arguments with
  | name :: rest => AccessLatency.Main.run name rest
  | [] => AccessLatency.Main.run "" []
