import AccessLatency.CommandLine.PlotArguments
import AccessLatency.Program.Basic

/-!
# The plotting program

It reads its command line, plots, and prints the path of the chart.
-/

set_option autoImplicit false

namespace AccessLatency

namespace Program

/-- From a command line to a written chart. -/
def plotSteps (around : Surroundings) (a : PlotArguments) : PlotRun String :=
  PlotRun.between around.folders (a.settings around.folders around.cpu) fun s =>
    s.plot around.typesetter around.folders

/-- The plotting program. -/
def plot (around : Surroundings) (arguments : List String) : Transcript :=
  match PlotArguments.read PlotArguments.command arguments with
  | .error stop => Transcript.ofStop around stop
  | .ok a =>
    let run := plotSteps around a
    let left := { around with folders := run.folders }
    match run.outcome.result with
    | .ok path =>
      { status := 0, output := path ++ "\n", complaint := none
        log := run.outcome.log.filter around.logFilter.keeps
        folders := run.folders }
    | .error why =>
      if why.breaksOff then Transcript.ofBreak left "" run.outcome.log why.message
      else
        { status := 1, output := "", complaint := none
          log := (run.outcome.log ++ [Transcript.faultRecord why.message]).filter
            around.logFilter.keeps
          folders := run.folders }

end Program

end AccessLatency
