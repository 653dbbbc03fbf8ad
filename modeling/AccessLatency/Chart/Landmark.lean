import AccessLatency.Binary64.Decimal
import AccessLatency.ByteSize
import AccessLatency.Machine.Sizes

/-!
# Landmarks among array sizes

At four array sizes the latency is expected to change: where the array outgrows each of the caches,
and where the page-table entries for it fill half of the last one. A chart marks each by a line
across it, with a label and a colour.
-/

set_option autoImplicit false

namespace AccessLatency

/-- The colours of the lines that mark landmarks. -/
inductive LineColour where
  | red
  | green
  | brown
  | purple
  deriving DecidableEq, Repr

/-- A colour as the amounts of its three parts. -/
structure Rgb where
  red : UInt8
  green : UInt8
  blue : UInt8
  deriving DecidableEq, Repr

namespace LineColour

/-- The parts of a colour. -/
def rgb : LineColour → Rgb
  | .red => ⟨255, 0, 0⟩
  | .green => ⟨0, 128, 0⟩
  | .brown => ⟨165, 42, 42⟩
  | .purple => ⟨128, 0, 128⟩

/-- The name of a colour in a TeX document. -/
def texName : LineColour → String
  | .red => "red"
  | .green => "green!50!black"
  | .brown => "brown"
  | .purple => "purple"

end LineColour

/-- A line across a chart at one array size. -/
structure Landmark where
  label : String
  x : Binary64
  colour : LineColour
  deriving DecidableEq

/-- The array sizes at which the latency is expected to change. -/
structure Landmarks where
  l1 : UInt64
  l2 : UInt64
  l3 : UInt64
  eviction : Binary64
  deriving DecidableEq

namespace Landmarks

/-- One half. -/
def half : Binary64 := Decimal.toBinary64 ⟨false, 5, -1⟩

/-- The size of an array whose page-table entries, one word for each page, fill half of the last
cache. -/
def evictionSize (sizes : MachineSizes) : Binary64 :=
  Binary64.mul (Binary64.mul (Binary64.ofWord sizes.l3) half)
    (Binary64.div (Binary64.ofWord sizes.page) (Binary64.ofWord sizes.word))

/-- The landmarks of a machine. -/
def ofSizes (sizes : MachineSizes) : Landmarks :=
  { l1 := sizes.l1, l2 := sizes.l2, l3 := sizes.l3, eviction := evictionSize sizes }

/-- The line at the capacity of a cache. -/
def cacheLine (name : String) (capacity : UInt64) (colour : LineColour) : Landmark :=
  { label := name ++ " (" ++ ByteSize.toText capacity ++ ")"
    x := Binary64.ofWord capacity
    colour }

/-- The lines at all landmarks. -/
def lines (m : Landmarks) : List Landmark :=
  [cacheLine "L1" m.l1 .red,
   cacheLine "L2" m.l2 .green,
   cacheLine "L3" m.l3 .brown,
   { label := "PT Evic. Thres.", x := m.eviction, colour := .purple }]

end Landmarks

end AccessLatency
