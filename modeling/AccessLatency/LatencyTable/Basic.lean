import AccessLatency.Binary64.Arithmetic

/-!
# Tables of measured latencies

A table holds one row per measured array: the size of the array in bytes and the mean latency, in
nanoseconds, of a random and of a sequential access to it. Rows stay in the order they were
measured in.
-/

set_option autoImplicit false

namespace AccessLatency

/-- A measured array. -/
structure LatencyRow where
  size : UInt64
  random : Binary64
  sequential : Binary64
  deriving DecidableEq

/-- A point of the plane. -/
structure Point where
  x : Binary64
  y : Binary64
  deriving DecidableEq

/-- Measured arrays, in order. -/
structure LatencyTable where
  rows : List LatencyRow
  deriving DecidableEq

namespace LatencyTable

/-- Whether no size is followed directly by a smaller one. -/
def ascending : List LatencyRow → Bool
  | a :: b :: rest => decide (a.size ≤ b.size) && ascending (b :: rest)
  | _ => true

/-- Whether the rows of a table stand in ascending order of size. -/
def isSorted (t : LatencyTable) : Bool := ascending t.rows

/-- The size of an array as a coordinate. -/
def sizeCoordinate (r : LatencyRow) : Binary64 := Binary64.ofWord r.size

/-- The latencies of random access over the sizes. -/
def randomPoints (t : LatencyTable) : List Point :=
  t.rows.map fun r => ⟨sizeCoordinate r, r.random⟩

/-- The latencies of sequential access over the sizes. -/
def sequentialPoints (t : LatencyTable) : List Point :=
  t.rows.map fun r => ⟨sizeCoordinate r, r.sequential⟩

end LatencyTable

end AccessLatency
