import AccessLatency.Benchmark.ShiftRegister
import AccessLatency.Binary64.Arithmetic
import AccessLatency.Word

/-!
# Walks over an array

A walk visits elements of an array, in order or at random, as many times as it is asked to and at
least once for each element. It is timed twice: the baseline loop computes the same indices as the
access loop without touching the array. The difference of the two times is the latency.

The access loop mixes each element it loads into the register, masked by a number that is zero in a
real measurement but that the loop does not know to be; so every load has to wait for the one
before. A number that is not zero leads the walk astray, possibly out of the array.
-/

set_option autoImplicit false

namespace AccessLatency

/-- The order in which a walk visits elements. -/
inductive AccessPattern where
  | random
  | sequential
  deriving DecidableEq, Repr

/-- A walk: its order, its least number of visits, the array, and the mask. -/
structure Walk where
  pattern : AccessPattern
  repeats : UInt64
  array : Array UInt64
  mask : UInt64

namespace Walk

/-- Why a walk cannot be finished. -/
inductive Fault where
  | emptyArray
  | outOfBounds (length index : Nat)
  | overflow (why : Word.Overflow)
  deriving DecidableEq, Repr

/-- The wording of a fault. -/
def Fault.message : Fault → String
  | .emptyArray => "cannot measure an empty array"
  | .outOfBounds length index =>
    "index out of bounds: the len is " ++ toString length ++ " but the index is " ++ toString index
  | .overflow why => why.message

/-- The number of elements of the array. -/
def length (w : Walk) : UInt64 := UInt64.ofNat w.array.size

/-- The number of visits of each loop. -/
def rounds (w : Walk) : Nat := max w.repeats.toNat w.array.size

/-- The index of a visit, given its number and the register. -/
def index (w : Walk) (visit register : UInt64) : UInt64 :=
  match w.pattern with
  | .random => register % w.length
  | .sequential => visit % w.length

/-- A loop under way: the register, and the indices so far. -/
structure Trace where
  register : UInt64
  indices : Array UInt64

/-- A visit of the baseline loop. -/
def baselineVisit (w : Walk) (t : Trace) (visit : Nat) : Trace :=
  let i := w.index (UInt64.ofNat visit) t.register
  ⟨ShiftRegister.step (t.register ^^^ ((i + w.mask) &&& w.mask)), t.indices.push i⟩

/-- A visit of the access loop. -/
def accessVisit (w : Walk) (t : Trace) (visit : Nat) : Except Fault Trace :=
  let i := w.index (UInt64.ofNat visit) t.register
  match Word.add i w.mask with
  | .error why => .error (.overflow why)
  | .ok place =>
    match w.array[place.toNat]? with
    | none => .error (.outOfBounds w.array.size place.toNat)
    | some element =>
      .ok ⟨ShiftRegister.step (t.register ^^^ (element &&& w.mask)), t.indices.push place⟩

/-- The baseline loop. -/
def baselineLoop (w : Walk) : Trace :=
  (List.range w.rounds).foldl w.baselineVisit ⟨ShiftRegister.seed, #[]⟩

/-- The access loop, with the register that the baseline loop ended with. -/
def accessLoop (w : Walk) (register : UInt64) : Except Fault Trace :=
  (List.range w.rounds).foldlM w.accessVisit ⟨(register &&& w.mask) ^^^ ShiftRegister.seed, #[]⟩

/-- Both loops, the baseline loop first. -/
def run (w : Walk) : Except Fault (Trace × Trace) :=
  if w.array.isEmpty then .error .emptyArray
  else
    let baseline := w.baselineLoop
    match w.accessLoop baseline.register with
    | .error fault => .error fault
    | .ok access => .ok (baseline, access)

end Walk

/-- The mean times of a visit in the two loops of a walk, in nanoseconds. -/
structure Timing where
  baseline : Binary64
  access : Binary64
  deriving DecidableEq

/-- The time that the access alone takes. -/
def Timing.latency (t : Timing) : Binary64 := Binary64.sub t.access t.baseline

end AccessLatency
