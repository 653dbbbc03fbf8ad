import AccessLatency.Machine.Format
import AccessLatency.Program.Basic

/-!
# The listing of caches

It prints a line for each cache of the processor, and then the levels. It takes no arguments, and
ignores those it is given.
-/

set_option autoImplicit false

namespace AccessLatency

namespace Program

/-- The complaint about a processor that says nothing of its caches. -/
def noCaches : String := "No cache parameters available on this CPU"

/-- The lines of caches, up to the first whose capacity is too large to be told. -/
def cacheLines : List CacheGeometry → List String × Option Word.Overflow
  | [] => ([], none)
  | c :: rest =>
    match c.capacity with
    | .error why => ([], some why)
    | .ok capacity =>
      let (lines, fault) := cacheLines rest
      ((c.description capacity ++ "\n") :: lines, fault)

/-- The listing of some caches. -/
def listing (around : Surroundings) (found : List CacheGeometry) : Transcript :=
  let (lines, fault) := cacheLines found
  match fault, CacheLevels.ofCaches found with
  | none, .ok levels =>
    { status := 0, output := String.join lines ++ levels.listing, complaint := none, log := []
      folders := around.folders }
  | some why, _ => Transcript.ofBreak around (String.join lines) [] why.message
  | none, .error why => Transcript.ofBreak around (String.join lines) [] why.message

/-- The program that lists caches. -/
def caches (around : Surroundings) (_ : List String) : Transcript :=
  match around.cpu.caches with
  | .error why => Transcript.ofBreak around "" [] why.message
  | .ok [] =>
    { status := 0, output := "", complaint := some noCaches, log := [], folders := around.folders }
  | .ok found => listing around found

end Program

end AccessLatency
