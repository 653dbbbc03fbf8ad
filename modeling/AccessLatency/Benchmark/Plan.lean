import AccessLatency.Benchmark.Mapping
import AccessLatency.Binary64.Arithmetic
import AccessLatency.Binary64.Shortest
import AccessLatency.Files.Fault

/-!
# Plans of a benchmark

A benchmark measures arrays of growing size. Sizes start at one hundred bytes, each is the one
before times a factor, rounded up, and larger than it by one byte at least; they end before a limit.
A plan whose sizes would not grow is refused when it is made; the sizes of any plan are well defined
all the same, since `lt_successor` holds for every factor.
-/

set_option autoImplicit false

namespace AccessLatency

/-- What a benchmark measures. -/
structure BenchmarkPlan where
  limit : UInt64
  factor : Binary64
  repeats : UInt64
  hugePages : Bool := false
  deriving DecidableEq

/-- Why a row is not taken by what the rows are handed to. -/
inductive SinkFault where
  | file (why : FileFault)
  | other (reason : String)
  deriving DecidableEq, Repr

/-- The wording of a sink fault. -/
def SinkFault.message : SinkFault → String
  | .file why => why.message
  | .other reason => reason

/-- Why a benchmark fails. -/
inductive BenchmarkFault where
  | limitNotPositive
  | factorTooSmall (factor : Binary64)
  | repeatsNotPositive
  | allocation (size : UInt64) (why : Mapping.Fault)
  | sink (why : SinkFault)
  deriving DecidableEq

/-- The wording of a fault. -/
def BenchmarkFault.message : BenchmarkFault → String
  | .limitNotPositive => "Invalid argument: max_size must be positive"
  | .factorTooSmall factor =>
    "Invalid argument: factor must be greater than 1, got " ++ factor.text
  | .repeatsNotPositive => "Invalid argument: repeat must be positive"
  | .allocation size why =>
    "Failed to allocate " ++ toString size.toNat ++ " bytes: " ++ why.message
  | .sink why => "I/O error: " ++ why.message

namespace BenchmarkPlan

/-- The size of the first array. -/
def firstSize : UInt64 := 100

/-- Make a plan. -/
def make (limit : UInt64) (factor : Binary64) (repeats : UInt64) :
    Except BenchmarkFault BenchmarkPlan :=
  if limit = 0 then .error .limitNotPositive
  else if !factor.isFinite || Binary64.le factor (Binary64.ofNat 1) then
    .error (.factorTooSmall factor)
  else if repeats = 0 then .error .repeatsNotPositive
  else .ok { limit, factor, repeats }

/-- The size after a size. -/
def successor (factor : Binary64) (size : UInt64) : UInt64 :=
  let grown := (Binary64.mul (Binary64.ofWord size) factor).ceilWord
  if grown ≤ size then size + 1 else grown

/-- Below a limit, a size is less than the one after it. -/
theorem lt_successor (factor : Binary64) {size limit : UInt64} (h : size < limit) :
    size < successor factor size := by
  unfold successor
  dsimp only
  split
  · have top := UInt64.toNat_lt limit
    rw [UInt64.lt_iff_toNat_lt] at h ⊢
    rw [UInt64.toNat_add]
    have one : (1 : UInt64).toNat = 1 := rfl
    rw [one, Nat.mod_eq_of_lt (by omega)]
    omega
  · rename_i more
    exact UInt64.not_le.1 more

/-- What is left up to the limit shrinks from one size to the next. -/
theorem remaining_lt (factor : Binary64) {size limit : UInt64} (h : size < limit) :
    limit.toNat - (successor factor size).toNat < limit.toNat - size.toNat := by
  have grows := lt_successor factor h
  rw [UInt64.lt_iff_toNat_lt] at h grows
  omega

/-- The sizes from a given one on. -/
def sizesFrom (p : BenchmarkPlan) (size : UInt64) : List UInt64 :=
  if h : size < p.limit then
    have := remaining_lt p.factor h
    size :: sizesFrom p (successor p.factor size)
  else []
termination_by p.limit.toNat - size.toNat

/-- All sizes of a plan. -/
def sizes (p : BenchmarkPlan) : List UInt64 := p.sizesFrom firstSize

/-- The first sizes from a given one on, up to a count. -/
def firstSizesFrom (p : BenchmarkPlan) : Nat → UInt64 → List UInt64
  | 0, _ => []
  | count + 1, size =>
    if size < p.limit then size :: firstSizesFrom p count (successor p.factor size) else []

/-- The sizes up to a count are those at the beginning of all sizes. -/
theorem firstSizesFrom_eq_take (p : BenchmarkPlan) (count : Nat) (size : UInt64) :
    p.firstSizesFrom count size = (p.sizesFrom size).take count := by
  induction count generalizing size with
  | zero => simp [firstSizesFrom]
  | succ count ih =>
    rw [firstSizesFrom, sizesFrom]
    by_cases h : size < p.limit
    · simp [h, ih]
    · simp [h]

/-- The first sizes of a plan, up to a count. -/
def firstSizes (p : BenchmarkPlan) (count : Nat) : List UInt64 := p.firstSizesFrom count firstSize

end BenchmarkPlan

end AccessLatency
