import AccessLatency.Machine.Cache

/-!
# The processor's description of its caches

The processor answers a query for one of its caches with four registers. Two leaves of such answers
exist, one for each family of vendors, and each is there only if the processor's highest leaf of its
range is high enough. Caches are asked for one after the other until an answer names no kind of
cache. A cache with so many sets that their number does not fit a register cannot be told, and
neither can any of the others then.
-/

set_option autoImplicit false

namespace AccessLatency

/-- The answer to a query. -/
structure Registers where
  eax : UInt32
  ebx : UInt32
  ecx : UInt32
  edx : UInt32
  deriving DecidableEq

/-- What a processor says of itself. The answers of a leaf are in the order of their indices; beyond
them all registers are zero. -/
structure Cpuid where
  vendor : String := ""
  highestLeaf : UInt32 := 0
  highestExtendedLeaf : UInt32 := 0
  cacheParameters : List Registers := []
  extendedCacheParameters : List Registers := []
  deriving DecidableEq

namespace Registers

/-- The number in `width` bits of a register, from bit `low` on. -/
def bits (register : UInt32) (low width : Nat) : Nat := register.toNat / 2 ^ low % 2 ^ width

/-- The number in some bits of a register, where the bits hold one less. -/
def bitsPlusOne (register : UInt32) (low width : Nat) : UInt64 :=
  UInt64.ofNat (bits register low width + 1)

/-- The number of sets. The register holds one less, and the number is counted in a register. -/
def sets (register : UInt32) : Except Word.Overflow UInt64 :=
  if register.toNat + 1 < 2 ^ 32 then .ok (UInt64.ofNat (register.toNat + 1))
  else .error .addition

/-- The cache of a given kind that an answer describes. -/
def cacheOfKind (r : Registers) (kind : CacheKind) : Except Word.Overflow CacheGeometry :=
  (sets r.ecx).map fun sets =>
    { kind
      level := UInt8.ofNat (bits r.eax 5 3)
      lineSize := bitsPlusOne r.ebx 0 12
      partitions := bitsPlusOne r.ebx 12 10
      ways := bitsPlusOne r.ebx 22 10
      sets }

/-- The kind of cache that an answer names, if any. -/
def kind? (r : Registers) : Option CacheKind := CacheKind.ofCode? (bits r.eax 0 5)

/-- The caches that answers describe, up to the first answer that names no kind of cache. -/
def caches : List Registers → Except Word.Overflow (List CacheGeometry)
  | [] => .ok []
  | r :: rest =>
    match r.kind? with
    | none => .ok []
    | some kind => do
      let first ← r.cacheOfKind kind
      let others ← caches rest
      return first :: others

end Registers

namespace Cpuid

/-- The leaf with the caches of most vendors. -/
def cacheLeaf : UInt32 := 4

/-- The leaf with the caches of the vendors that describe them in the extended range. -/
def extendedCacheLeaf : UInt32 := 0x8000001D

/-- Whether a vendor's processors describe their caches in the extended range. -/
def usesExtendedLeaf (vendor : String) : Bool :=
  vendor == "AuthenticAMD" || vendor == "HygonGenuine"

/-- The answers that describe the caches of a processor; none if it does not describe them. -/
def cacheAnswers (cpu : Cpuid) : List Registers :=
  if usesExtendedLeaf cpu.vendor then
    if extendedCacheLeaf ≤ cpu.highestExtendedLeaf then cpu.extendedCacheParameters else []
  else if cacheLeaf ≤ cpu.highestLeaf then cpu.cacheParameters
  else []

/-- The caches of a processor. -/
def caches (cpu : Cpuid) : Except Word.Overflow (List CacheGeometry) :=
  Registers.caches cpu.cacheAnswers

/-- The capacities of a processor's caches that hold data. -/
def levels (cpu : Cpuid) : Except Word.Overflow CacheLevels := do
  let found ← cpu.caches
  CacheLevels.ofCaches found

end Cpuid

end AccessLatency
