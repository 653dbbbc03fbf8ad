import AccessLatency.Benchmark.Run
import AccessLatency.CommandLine.Parser
import AccessLatency.Files.Content
import AccessLatency.Machine.Cpuid
import AccessLatency.Plot.Drawing
import AccessLatency.Program.ErrorStream

/-!
# Programs

A program is a function from its surroundings and its arguments to a transcript: how it ends, what
it prints, what it leaves in the log and in the folders. A rejected command line ends it with status
two, any other fault with status one, after a last record in the log. The log keeps the records that
are serious enough for its filter, and goes out on the error stream in front of any complaint.
-/

set_option autoImplicit false

namespace AccessLatency

/-- Which records the log keeps: those up to a rank. -/
structure LogFilter where
  rank : Nat
  deriving DecidableEq

namespace LogFilter

/-- The filter that holds where none is asked for. -/
def standard : LogFilter := ⟨LogLevel.info.rank⟩

/-- The filter of a given name. Without a name only errors are kept; a level below those of this
library keeps all of its records, and what is no level keeps none. -/
def ofName (name : String) : LogFilter :=
  match [("", 1), ("error", 1), ("warn", 2), ("info", 3), ("debug", 4), ("trace", 5)].lookup
      (String.ofList (Text.lower name.toList)) with
  | some rank => ⟨rank⟩
  | none => ⟨0⟩

/-- Whether a record is kept. -/
def keeps (filter : LogFilter) (r : LogRecord) : Bool := decide (r.level.rank ≤ filter.rank)

end LogFilter

/-- What a program finds around it. -/
structure Surroundings where
  folders : Folders
  cpu : Cpuid
  host : Host
  typesetter : Typesetter
  logFilter : LogFilter

/-- What a program leaves behind. -/
structure Transcript where
  status : Nat
  output : String
  complaint : Option String
  log : List LogRecord
  folders : Folders

namespace Transcript

/-- The record of the fault that ends a program. -/
def faultRecord (message : String) : LogRecord := ⟨.error, message⟩

/-- The transcript of a program that is stopped by its command line. -/
def ofStop (around : Surroundings) (stop : CommandLine.Stop) : Transcript :=
  match stop with
  | .answered answer =>
    { status := 0, output := answer.text, complaint := none, log := [], folders := around.folders }
  | .rejected why =>
    { status := 2, output := "", complaint := some (why.message .stream), log := []
      folders := around.folders }

/-- The status of a program that does not get to its end. -/
def brokenStatus : Nat := 101

/-- The transcript of a program that is broken off after some output. The complaint stands behind an
empty line. -/
def ofBreak (around : Surroundings) (output : String) (log : List LogRecord) (why : String) :
    Transcript :=
  { status := brokenStatus, output, complaint := some ("\n" ++ why)
    log := log.filter around.logFilter.keeps
    folders := around.folders }

/-- What goes out on the error stream: the records, and then the complaint. -/
def errorSigns (t : Transcript) : List ErrorSign :=
  t.log.flatMap LogRecord.signs
    ++ t.complaint.toList.flatMap ErrorSign.ofText

/-- The lines on the error stream. -/
def errorLines (t : Transcript) : List ErrorLine :=
  (ErrorSign.lines t.errorSigns).map ErrorSign.lineOf

end Transcript

end AccessLatency
