import AccessLatency.CommandLine.Value
import AccessLatency.Machine.Cpuid
import AccessLatency.Plot.Run

/-!
# The command line of a plot

Every setting of a plot can be given as a parameter. A parameter that is given wins over a detected
cache size, that over the file with settings, and that over the defaults.
-/

set_option autoImplicit false

namespace AccessLatency

/-- What the command line of a plot gives. -/
structure PlotArguments where
  input : Option String := none
  output : Option String := none
  settingsFile : Option String := none
  xScale : Option AxisScale := none
  yScale : Option AxisScale := none
  l1 : Option UInt64 := none
  l2 : Option UInt64 := none
  l3 : Option UInt64 := none
  word : Option UInt64 := none
  page : Option UInt64 := none
  detectCaches : Bool := false
  title : Option String := none
  width : Option UInt32 := none
  height : Option UInt32 := none
  deriving DecidableEq

namespace PlotArguments

open CommandLine

/-- The standard name of the command. -/
def command : String := "latency_plot"

/-- The description of the command under a name. -/
def help (name : String) : String := CommandLine.textOfLines
  ["Plot memory latency benchmark results annotated with cache size thresholds",
   "",
   "Usage: " ++ name ++ " [OPTIONS] [FILE]",
   "",
   "Arguments:",
   "  [FILE]  Benchmark CSV: size,random_ns,sequential_ns",
   "",
   "Options:",
   "  -o, --output <FILE>          Chart to write; the extension picks the format (png, svg, tex, pdf)",
   "  -c, --config <FILE>          JSON configuration file, overridden by the flags below",
   "      --x-scale <X_SCALE>      [possible values: log, linear]",
   "      --y-scale <Y_SCALE>      [possible values: log, linear]",
   "      --l1-size <L1_SIZE>      L1 cache size (e.g. 128KiB)",
   "      --l2-size <L2_SIZE>      L2 cache size (e.g. 1MiB)",
   "      --l3-size <L3_SIZE>      L3 cache size (e.g. 6MiB)",
   "      --word-size <WORD_SIZE>  ",
   "      --page-size <PAGE_SIZE>  ",
   "      --detect-caches          Take the L1/L2/L3 sizes from this machine's CPUID",
   "      --title <TITLE>          ",
   "      --width <WIDTH>          ",
   "      --height <HEIGHT>        ",
   "  -h, --help                   Print help",
   "  -V, --version                Print version"]

/-- The name and the version of the command. -/
def version : String := command ++ " 0.1.0\n"

/-- A parameter with a long name that takes a value. -/
def named {α : Type} (long valueName : String) (short : Option Char)
    (read : String → Except ValueFault α) (store : α → PlotArguments → PlotArguments) :
    Named PlotArguments :=
  ⟨⟨"--" ++ long ++ " <" ++ valueName ++ ">", valueRole read store⟩, long, short⟩

/-- The parameters of the command under a name. -/
def spec (name : String) : Spec PlotArguments :=
  { named :=
      [named "output" "FILE" (some 'o') pathValue fun v a => { a with output := some v },
       named "config" "FILE" (some 'c') pathValue fun v a => { a with settingsFile := some v },
       named "x-scale" "X_SCALE" none scaleValue fun v a => { a with xScale := some v },
       named "y-scale" "Y_SCALE" none scaleValue fun v a => { a with yScale := some v },
       named "l1-size" "L1_SIZE" none sizeValue fun v a => { a with l1 := some v },
       named "l2-size" "L2_SIZE" none sizeValue fun v a => { a with l2 := some v },
       named "l3-size" "L3_SIZE" none sizeValue fun v a => { a with l3 := some v },
       named "word-size" "WORD_SIZE" none sizeValue fun v a => { a with word := some v },
       named "page-size" "PAGE_SIZE" none sizeValue fun v a => { a with page := some v },
       ⟨⟨"--detect-caches", .switch fun a => { a with detectCaches := true }⟩, "detect-caches",
          none⟩,
       named "title" "TITLE" none textValue fun v a => { a with title := some v },
       named "width" "WIDTH" none pixelValue fun v a => { a with width := some v },
       named "height" "HEIGHT" none pixelValue fun v a => { a with height := some v },
       ⟨⟨"--help", .answer (.help (help name)) (.help (help name))⟩, "help", some 'h'⟩,
       ⟨⟨"--version", .answer (.version version) (.version version)⟩, "version", some 'V'⟩]
    unnamed := [⟨"[FILE]", valueRole pathValue fun v a => { a with input := some v }⟩]
    required := [] }

/-- Read the arguments of the command, which is called by a name. -/
def read (name : String) (arguments : List String) : Except Stop PlotArguments :=
  (spec name).read {} arguments

/-- The settings in the file that the command line names, or else the defaults. -/
def fileSettings (a : PlotArguments) (folders : Folders) : Outcome PlotFault PlotSettings :=
  match a.settingsFile with
  | some path => PlotSettings.load folders path
  | none => Outcome.ok {}

/-- The warning that no cache has been found. -/
def noCachesWarning : String := "No cache information available, keeping configured sizes"

/-- The levels of the machine, if they are asked for. -/
def detectedLevels (a : PlotArguments) (cpu : Cpuid) : Outcome PlotFault CacheLevels :=
  if a.detectCaches then
    (Outcome.ofExcept (cpu.levels.mapError PlotFault.overflow)).bind fun levels =>
      (if levels.isEmpty then Outcome.record .warn noCachesWarning
        else Outcome.record .info ("Detected caches: " ++ levels.summary)).bind fun _ =>
        Outcome.ok levels
  else Outcome.ok {}

/-- The sizes of the machine with those that the command line gives. -/
def overrideSizes (a : PlotArguments) (sizes : MachineSizes) : MachineSizes :=
  { l1 := a.l1.getD sizes.l1
    l2 := a.l2.getD sizes.l2
    l3 := a.l3.getD sizes.l3
    word := a.word.getD sizes.word
    page := a.page.getD sizes.page }

/-- The settings with what the command line gives and with detected levels. -/
def overrideSettings (a : PlotArguments) (levels : CacheLevels) (s : PlotSettings) : PlotSettings :=
  { input := a.input.getD s.input
    output := match a.output with
      | some path => some path
      | none => s.output
    xScale := a.xScale.getD s.xScale
    yScale := a.yScale.getD s.yScale
    sizes := a.overrideSizes (s.sizes.withLevels levels)
    title := a.title.getD s.title
    width := a.width.getD s.width
    height := a.height.getD s.height }

/-- The settings of the plot. -/
def settings (a : PlotArguments) (folders : Folders) (cpu : Cpuid) :
    Outcome PlotFault PlotSettings := do
  let base ← a.fileSettings folders
  let levels ← a.detectedLevels cpu
  return a.overrideSettings levels base

end PlotArguments

end AccessLatency
