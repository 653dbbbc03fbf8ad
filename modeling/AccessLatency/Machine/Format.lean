import AccessLatency.Json.Decode
import AccessLatency.Machine.Cache

/-!
# Caches and their levels as text and as JSON

A cache and the levels are JSON objects, or lists of their values in the order in which they are
written. A level without a capacity is null, and reads back from null or from a field left out.
Fields that no record has are ignored.
-/

set_option autoImplicit false

namespace AccessLatency

namespace CacheKind

/-- Read a kind by its name. -/
def ofJson (j : Json) : Except Json.Mismatch CacheKind :=
  Json.variant (all.map fun kind => (kind.name, kind)) j

end CacheKind

namespace Json

/-- A word as a JSON number. -/
def ofWord (w : UInt64) : Json := .number (.natural w)

/-- A word as a JSON number, or null. -/
def ofWord? : Option UInt64 → Json
  | none => .null
  | some w => ofWord w

/-- Read the size of something in memory. -/
def size (j : Json) : Except Mismatch UInt64 := word "usize" j

end Json

namespace CacheGeometry

/-- What a cache is called in a mismatch. -/
def recordName : String := "struct CacheInfo"

/-- A cache as a JSON object. -/
def toJson (c : CacheGeometry) : Json :=
  .object
    [("cache_type", .string c.kind.name),
     ("level", Json.ofWord (UInt64.ofNat c.level.toNat)),
     ("line_size", Json.ofWord c.lineSize),
     ("physical_line_partitions", Json.ofWord c.partitions),
     ("ways", Json.ofWord c.ways),
     ("sets", Json.ofWord c.sets)]

/-- Read the fields of a cache, in the order of their keys; then all of them have to be there. -/
def ofFields (fields : Json.Fields) : Except Json.Mismatch CacheGeometry := do
  let kind ← Json.present CacheKind.ofJson "cache_type" fields
  let level ← Json.present Json.word8 "level" fields
  let lineSize ← Json.present Json.size "line_size" fields
  let partitions ← Json.present Json.size "physical_line_partitions" fields
  let sets ← Json.present Json.size "sets" fields
  let ways ← Json.present Json.size "ways" fields
  let kind ← Json.required "cache_type" kind
  let level ← Json.required "level" level
  let lineSize ← Json.required "line_size" lineSize
  let partitions ← Json.required "physical_line_partitions" partitions
  let ways ← Json.required "ways" ways
  let sets ← Json.required "sets" sets
  return { kind, level, lineSize, partitions, ways, sets }

/-- Read the values of a cache, in the order in which they are written. -/
def ofItems (items : List Json) : Except Json.Mismatch CacheGeometry := do
  let expected := recordName ++ " with 6 elements"
  let kind ← Json.item expected CacheKind.ofJson items 0
  let level ← Json.item expected Json.word8 items 1
  let lineSize ← Json.item expected Json.size items 2
  let partitions ← Json.item expected Json.size items 3
  let ways ← Json.item expected Json.size items 4
  let sets ← Json.item expected Json.size items 5
  Json.noMoreThan 6 items
  return { kind, level, lineSize, partitions, ways, sets }

/-- Read a cache. -/
def ofJson : Json → Except Json.Mismatch CacheGeometry
  | .object fields => ofFields fields
  | .array items => ofItems items
  | j => Json.wrongType recordName j

/-- A cache as a line of a listing. -/
def description (c : CacheGeometry) (capacity : UInt64) : String :=
  "L" ++ toString c.level.toNat ++ " " ++ c.kind.name ++ ": " ++ toString capacity.toNat
    ++ " bytes (" ++ toString c.ways.toNat ++ " ways, " ++ toString c.sets.toNat ++ " sets, "
    ++ toString c.lineSize.toNat ++ " B lines)"

end CacheGeometry

namespace CacheLevels

/-- What the levels are called in a mismatch. -/
def recordName : String := "struct CacheHierarchy"

/-- The levels as a JSON object. -/
def toJson (levels : CacheLevels) : Json :=
  .object
    [("l1", Json.ofWord? levels.l1), ("l2", Json.ofWord? levels.l2), ("l3", Json.ofWord? levels.l3)]

/-- Read the levels out of the fields of an object. -/
def ofFields (fields : Json.Fields) : Except Json.Mismatch CacheLevels := do
  let l1 ← Json.present (Json.optional Json.size) "l1" fields
  let l2 ← Json.present (Json.optional Json.size) "l2" fields
  let l3 ← Json.present (Json.optional Json.size) "l3" fields
  return ⟨l1.getD none, l2.getD none, l3.getD none⟩

/-- Read the levels out of a list. -/
def ofItems (items : List Json) : Except Json.Mismatch CacheLevels := do
  let expected := recordName ++ " with 3 elements"
  let l1 ← Json.item expected (Json.optional Json.size) items 0
  let l2 ← Json.item expected (Json.optional Json.size) items 1
  let l3 ← Json.item expected (Json.optional Json.size) items 2
  Json.noMoreThan 3 items
  return ⟨l1, l2, l3⟩

/-- Read the levels. -/
def ofJson : Json → Except Json.Mismatch CacheLevels
  | .object fields => ofFields fields
  | .array items => ofItems items
  | j => Json.wrongType recordName j

/-- A capacity inside a text on one line. -/
def capacityText : Option UInt64 → String
  | none => "None"
  | some w => "Some(" ++ toString w.toNat ++ ")"

/-- The levels on one line. -/
def summary (levels : CacheLevels) : String :=
  "CacheHierarchy \x7b l1: " ++ capacityText levels.l1 ++ ", l2: " ++ capacityText levels.l2
    ++ ", l3: " ++ capacityText levels.l3 ++ " \x7d"

/-- A level in a text of several lines. -/
def levelLines (name : String) : Option UInt64 → String
  | none => "    " ++ name ++ ": None,\n"
  | some w => "    " ++ name ++ ": Some(\n        " ++ toString w.toNat ++ ",\n    ),\n"

/-- The levels on several lines. -/
def listing (levels : CacheLevels) : String :=
  "CacheHierarchy \x7b\n" ++ levelLines "l1" levels.l1 ++ levelLines "l2" levels.l2
    ++ levelLines "l3" levels.l3 ++ "\x7d\n"

end CacheLevels

end AccessLatency
