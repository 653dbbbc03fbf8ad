import AccessLatency.Binary64.Arithmetic
import AccessLatency.Binary64.Decimal

/-!
# Axis scales and ranges

An axis is linear or logarithmic. A logarithmic axis shows positive values only. The range of an
axis is that of the values on it, with some room at both ends: a factor on a logarithmic axis, and a
part of the span on a linear one.
-/

set_option autoImplicit false

namespace AccessLatency

/-- How values are laid out along an axis. -/
inductive AxisScale where
  | log
  | linear
  deriving DecidableEq, Repr

namespace AxisScale

/-- The name of a scale. -/
def name : AxisScale → String
  | .log => "log"
  | .linear => "linear"

/-- All scales. -/
def all : List AxisScale := [.log, .linear]

/-- Whether an axis of this scale can show a value. -/
def shows : AxisScale → Binary64 → Bool
  | .log, v => Binary64.lt (Binary64.zero false) v
  | .linear, _ => true

end AxisScale

/-- The values from a lower one to an upper one. -/
structure Range where
  lower : Binary64
  upper : Binary64
  deriving DecidableEq

namespace Range

/-- The earlier of two numbers in the total order. -/
def lesser (a b : Binary64) : Binary64 := if Binary64.totalLe a b then a else b

/-- The later of two numbers in the total order. -/
def greater (a b : Binary64) : Binary64 := if Binary64.totalLe a b then b else a

/-- The least and the greatest of some numbers in the total order. -/
def ofValues? : List Binary64 → Option Range
  | [] => none
  | v :: rest => some ⟨rest.foldl lesser v, rest.foldl greater v⟩

/-- One and a half. -/
def roomFactor : Binary64 := Decimal.toBinary64 ⟨false, 15, -1⟩

/-- One twentieth, as near as a number comes to it. -/
def roomPart : Binary64 := Decimal.toBinary64 ⟨false, 5, -2⟩

/-- The length of a range on a linear axis; that of the range of one value is its magnitude, or one
if that is larger. -/
def span (r : Range) : Binary64 :=
  if Binary64.lt r.lower r.upper then Binary64.sub r.upper r.lower
  else Binary64.max (Binary64.abs r.lower) (Binary64.ofNat 1)

/-- The range with room at both ends. -/
def padded : AxisScale → Range → Range
  | .log, r => ⟨Binary64.div r.lower roomFactor, Binary64.mul r.upper roomFactor⟩
  | .linear, r =>
    let room := Binary64.mul roomPart r.span
    ⟨Binary64.sub r.lower room, Binary64.add r.upper room⟩

end Range

end AccessLatency
