import AccessLatency.CommandLine.Value

/-!
# The command line of a benchmark

A benchmark is told the limit of the array sizes, the factor from one to the next, and the number of
accesses to average over; and it may be told where to write the rows.
-/

set_option autoImplicit false

namespace AccessLatency

/-- What the command line of a benchmark gives. -/
structure BenchmarkArguments where
  limit : UInt64 := 0
  factor : Binary64 := Binary64.zero false
  repeats : UInt64 := 0
  output : Option String := none
  header : Bool := false
  hugePages : Bool := false
  deriving DecidableEq

namespace BenchmarkArguments

open CommandLine

/-- The standard name of the command. -/
def command : String := "memory_latency"

/-- The short description of the command under a name. -/
def shortHelp (name : String) : String := CommandLine.textOfLines
  ["Measures the access latency for random and sequential memory access patterns",
   "",
   "Usage: " ++ name ++ " [OPTIONS] <MAX_SIZE> <FACTOR> <REPEAT>",
   "",
   "Arguments:",
   "  <MAX_SIZE>  Maximum size in bytes of the array to measure (exclusive)",
   "  <FACTOR>    Factor of the geometric series of array sizes",
   "  <REPEAT>    Number of accesses each measurement is averaged on",
   "",
   "Options:",
   "  -o, --output <FILE>  Write the rows to this file instead of stdout",
   "      --header         Emit a header row first",
   "      --huge-pages     Back the arrays with huge pages (MAP_HUGETLB)",
   "  -h, --help           Print help (see more with '--help')",
   "  -V, --version        Print version"]

/-- The long description of the command under a name. -/
def longHelp (name : String) : String := CommandLine.textOfLines
  ["Measures the access latency for random and sequential memory access patterns.",
   "",
   "Prints one line per array size: `size,random_ns,sequential_ns`.",
   "",
   "Usage: " ++ name ++ " [OPTIONS] <MAX_SIZE> <FACTOR> <REPEAT>",
   "",
   "Arguments:",
   "  <MAX_SIZE>",
   "          Maximum size in bytes of the array to measure (exclusive)",
   "",
   "  <FACTOR>",
   "          Factor of the geometric series of array sizes",
   "",
   "  <REPEAT>",
   "          Number of accesses each measurement is averaged on",
   "",
   "Options:",
   "  -o, --output <FILE>",
   "          Write the rows to this file instead of stdout",
   "",
   "      --header",
   "          Emit a header row first",
   "",
   "      --huge-pages",
   "          Back the arrays with huge pages (MAP_HUGETLB)",
   "",
   "  -h, --help",
   "          Print help (see a summary with '-h')",
   "",
   "  -V, --version",
   "          Print version"]

/-- The name and the version of the command. -/
def version : String := command ++ " 0.1.0\n"

/-- A parameter that takes a value and has no name. -/
def unnamed {α : Type} (shown : String) (read : String → Except ValueFault α)
    (store : α → BenchmarkArguments → BenchmarkArguments) : Parameter BenchmarkArguments :=
  ⟨shown, valueRole read store⟩

/-- The parameters of the command under a name. -/
def spec (name : String) : Spec BenchmarkArguments :=
  { named :=
      [⟨⟨"--output <FILE>", valueRole pathValue fun v a => { a with output := some v }⟩, "output",
          some 'o'⟩,
       ⟨⟨"--header", .switch fun a => { a with header := true }⟩, "header", none⟩,
       ⟨⟨"--huge-pages", .switch fun a => { a with hugePages := true }⟩, "huge-pages", none⟩,
       ⟨⟨"--help", .answer (.help (shortHelp name)) (.help (longHelp name))⟩, "help", some 'h'⟩,
       ⟨⟨"--version", .answer (.version version) (.version version)⟩, "version", some 'V'⟩]
    unnamed :=
      [unnamed "<MAX_SIZE>" wordValue fun v a => { a with limit := v },
       unnamed "<FACTOR>" factorValue fun v a => { a with factor := v },
       unnamed "<REPEAT>" wordValue fun v a => { a with repeats := v }]
    required := ["<MAX_SIZE>", "<FACTOR>", "<REPEAT>"] }

/-- Read the arguments of the command, which is called by a name. -/
def read (name : String) (arguments : List String) : Except Stop BenchmarkArguments :=
  (spec name).read {} arguments

end BenchmarkArguments

end AccessLatency
