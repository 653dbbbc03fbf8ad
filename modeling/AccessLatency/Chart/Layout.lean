import AccessLatency.Word

/-!
# The layout of an image

An image of a chart is cut into areas. A margin goes off on all sides, and a band for the title at
the top. What is left is cut by a band at the left and one at the bottom, in which the axes are
labelled, and the chart stands in the middle.

An image may be too small for its bands. Then the cuts fall in another order: what a band has too
much lies on the far side, and the label of its axis stands there too, or only there.

Positions are signed numbers of 32 bits, and a side of an image is taken for such a number, even if
it is none. A position that is out of reach breaks the drawing off. `nonneg_cut` says that no area
has a negative extent.
-/

set_option autoImplicit false

namespace AccessLatency

namespace Position

/-- The position with a given value, or an overflow of the given operation if there is none. -/
def ofInt (operation : Word.Overflow) (n : Int) : Except Word.Overflow Int :=
  if -(2 ^ 31) ≤ n ∧ n < 2 ^ 31 then .ok n else .error operation

/-- The exact sum of two positions. -/
def add (a b : Int) : Except Word.Overflow Int := ofInt .addition (a + b)

/-- The exact difference of two positions. -/
def sub (a b : Int) : Except Word.Overflow Int := ofInt .subtraction (a - b)

/-- A side of an image as a position: a side that is no position is taken for the number with the
same bits. -/
def ofSide (side : UInt32) : Int :=
  if side.toNat < 2 ^ 31 then side.toNat else side.toNat - 2 ^ 32

end Position

/-- An extent cut into three, from the side of its band on. -/
structure Thirds where
  near : Int
  middle : Int
  far : Int
  deriving DecidableEq, Repr

namespace Thirds

/-- Cut a band off an extent. A negative extent reaches back from the place where it begins. -/
def cut (extent band : Int) : Thirds :=
  if band ≤ extent then ⟨band, extent - band, 0⟩
  else if 0 ≤ extent then ⟨extent, 0, band - extent⟩
  else ⟨0, -extent, band⟩

/-- No part is negative. -/
theorem nonneg_cut {extent band : Int} (h : 0 ≤ band) :
    0 ≤ (cut extent band).near ∧ 0 ≤ (cut extent band).middle ∧ 0 ≤ (cut extent band).far := by
  unfold cut
  split
  · dsimp only
    omega
  · split <;> dsimp only <;> omega

end Thirds

/-- The axes of a chart. -/
inductive ChartAxis where
  | horizontal
  | vertical
  deriving DecidableEq, Repr

/-- The layout of an image: its columns from the left, and its rows from the bottom. -/
structure ChartLayout where
  columns : Thirds
  rows : Thirds
  deriving DecidableEq, Repr

/-- Why there is no layout, and whether the title is drawn before that is found. -/
structure LayoutFault where
  titled : Bool
  why : Word.Overflow
  deriving DecidableEq, Repr

namespace ChartLayout

/-- The margin on each side of an image. -/
def margin : Int := 20

/-- The height of the band for the title: its text, with five points above and below. -/
def titleBand : Int := 22 + 2 * 5

/-- The width of the band for the vertical axis. -/
def leftBand : Int := 70

/-- The height of the band for the horizontal axis. -/
def bottomBand : Int := 50

/-- The width inside the margins, and the position of the lower margin. -/
def frame (width height : UInt32) : Except Word.Overflow (Int × Int) := do
  let right ← Position.sub (Position.ofSide width) margin
  let bottom ← Position.sub (Position.ofSide height) margin
  let inner ← Position.sub right margin
  return (inner, bottom)

/-- The areas below the title. -/
def belowTitle (inner bottom : Int) : Except Word.Overflow ChartLayout := do
  let height ← Position.sub bottom (margin + titleBand)
  let _ ← Position.add height (-bottomBand)
  let layout : ChartLayout := ⟨Thirds.cut inner leftBand, Thirds.cut height bottomBand⟩
  let _ ← Position.ofInt .subtraction layout.columns.middle
  return layout

/-- The layout of an image of a given size. -/
def ofSize (width height : UInt32) : Except LayoutFault ChartLayout :=
  match frame width height with
  | .error why => .error ⟨false, why⟩
  | .ok (inner, bottom) => (belowTitle inner bottom).mapError fun why => ⟨true, why⟩

/-- The areas around the chart, in the order in which they are filled: which axis is labelled there,
and their extents. -/
def labelAreas (layout : ChartLayout) : List (ChartAxis × Int × Int) :=
  [(.horizontal, layout.columns.middle, layout.rows.far),
   (.vertical, layout.columns.near, layout.rows.middle),
   (.horizontal, layout.columns.middle, layout.rows.near),
   (.vertical, layout.columns.far, layout.rows.middle)]

/-- The axes that are labelled, once for each area that is not empty. -/
def labelled (layout : ChartLayout) : List ChartAxis :=
  (layout.labelAreas.filter fun area => decide (0 < area.2.1) && decide (0 < area.2.2)).map Prod.fst

/-! ### The legend -/

/-- The padding of the legend. -/
def legendPadding : Int := 10

/-- The distance between lines of the legend. -/
def legendDistance : Int := 15

/-- The height of a text in the legend. -/
def legendText : Int := 9

/-- The height of a legend with a number of lines, without its padding. -/
def legendHeight (lines : Nat) : Int := legendDistance * (lines - 1) + legendText

/-- The position of the text in a line of the legend, which stands half-way up the chart. -/
def legendTop (layout : ChartLayout) (lines line : Nat) : Int :=
  (layout.rows.middle - (legendHeight lines + 2 * legendPadding)).tdiv 2 + legendPadding
    + legendDistance * line

/-- Twice the position of the sample in a line of the legend: it stands half-way between the top and
the bottom of its text. -/
def samplePosition (layout : ChartLayout) (lines line : Nat) : Except Word.Overflow Int :=
  let top := layout.legendTop lines line
  Position.add top (top + legendText)

/-- The first line of the legend whose sample cannot be placed, and why. -/
def legendFault? (layout : ChartLayout) (lines : Nat) : Option (Nat × Word.Overflow) :=
  (List.range lines).findSome? fun line =>
    match layout.samplePosition lines line with
    | .ok _ => none
    | .error why => some (line, why)

end ChartLayout

end AccessLatency
