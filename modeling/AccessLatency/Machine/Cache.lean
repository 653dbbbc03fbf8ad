import AccessLatency.Machine.Sizes
import AccessLatency.Word

/-!
# Caches

A cache of some level is made of sets; a set has a number of ways, and a way a number of
partitions, each of which holds a line. The capacity is the product of all of them. Of the caches of
a level, the largest that holds data counts.
-/

set_option autoImplicit false

namespace AccessLatency

/-- What a cache holds. -/
inductive CacheKind where
  | data
  | instruction
  | unified
  deriving DecidableEq

namespace CacheKind

/-- The name of a kind. -/
def name : CacheKind → String
  | .data => "Data"
  | .instruction => "Instruction"
  | .unified => "Unified"

/-- The number of a kind in the processor's description of itself. -/
def code : CacheKind → Nat
  | .data => 1
  | .instruction => 2
  | .unified => 3

/-- All kinds, in the order of their numbers. -/
def all : List CacheKind := [.data, .instruction, .unified]

/-- The kind with a given number. -/
def ofCode? (code : Nat) : Option CacheKind := all.find? fun kind => kind.code == code

/-- Whether a load of data goes through a cache of this kind. -/
def holdsData : CacheKind → Bool
  | .data => true
  | .instruction => false
  | .unified => true

end CacheKind

/-- The layout of a cache. -/
structure CacheGeometry where
  kind : CacheKind
  level : UInt8
  lineSize : UInt64
  partitions : UInt64
  ways : UInt64
  sets : UInt64
  deriving DecidableEq

namespace CacheGeometry

/-- The capacity of a cache in bytes. -/
def capacity (c : CacheGeometry) : Except Word.Overflow UInt64 := do
  let perSet ← Word.mul c.ways c.partitions
  let bytesPerSet ← Word.mul perSet c.lineSize
  Word.mul bytesPerSet c.sets

/-- Whether a cache of the given level holds data. -/
def servesLevel (level : UInt8) (c : CacheGeometry) : Bool :=
  c.level == level && c.kind.holdsData

end CacheGeometry

/-- The larger of two capacities, where there are any. -/
def largerCapacity (a : Option UInt64) (b : UInt64) : Option UInt64 :=
  match a with
  | none => some b
  | some a => some (if a ≤ b then b else a)

/-- The largest capacity of the caches of a level that hold data. -/
def levelCapacity (caches : List CacheGeometry) (level : UInt8) :
    Except Word.Overflow (Option UInt64) := do
  let capacities ← (caches.filter (CacheGeometry.servesLevel level)).mapM CacheGeometry.capacity
  return capacities.foldl largerCapacity none

/-- The capacities of the three levels. -/
def CacheLevels.ofCaches (caches : List CacheGeometry) : Except Word.Overflow CacheLevels := do
  let l1 ← levelCapacity caches 1
  let l2 ← levelCapacity caches 2
  let l3 ← levelCapacity caches 3
  return ⟨l1, l2, l3⟩

end AccessLatency
