/-!
# The sizes of a machine's memory

The capacities of the cache levels that hold data, as far as they are known, and the sizes that a
chart is annotated with: those capacities, the word and the page. Known capacities take the place of
assumed ones.
-/

set_option autoImplicit false

namespace AccessLatency

/-- The capacities in bytes of the caches that hold data, for each level where one is known. -/
structure CacheLevels where
  l1 : Option UInt64 := none
  l2 : Option UInt64 := none
  l3 : Option UInt64 := none
  deriving DecidableEq

/-- Whether the capacity of no level is known. -/
def CacheLevels.isEmpty (levels : CacheLevels) : Bool :=
  levels.l1.isNone && levels.l2.isNone && levels.l3.isNone

/-- The sizes in bytes that describe a machine; those of a common one of 64 bits by default. -/
structure MachineSizes where
  l1 : UInt64 := 128 * 1024
  l2 : UInt64 := 1024 * 1024
  l3 : UInt64 := 6 * 1024 * 1024
  word : UInt64 := 8
  page : UInt64 := 4096
  deriving DecidableEq

/-- The sizes with known capacities in the place of assumed ones. -/
def MachineSizes.withLevels (sizes : MachineSizes) (levels : CacheLevels) : MachineSizes :=
  { sizes with
    l1 := levels.l1.getD sizes.l1
    l2 := levels.l2.getD sizes.l2
    l3 := levels.l3.getD sizes.l3 }

end AccessLatency
