import AccessLatency.Chart.Layout
import Mathlib.Tactic

/-!
# Layouts of images that are not too large

An image whose sides are positions has a layout, and a legend of few lines is in reach of it: the
drawing of such an image is not broken off. Both axes are labelled, and each once, unless a side of
the image lies in a gap: there the bands leave no room for the chart between them.
-/

set_option autoImplicit false

namespace AccessLatency

/-- A side below `2 ^ 31` is the position at its end. -/
theorem Position.ofSide_of_lt {side : UInt32} (h : side.toNat < 2 ^ 31) :
    Position.ofSide side = side.toNat := if_pos h

/-- A number of 31 bits and a sign is a position. -/
theorem Position.ofInt_eq_ok {operation : Word.Overflow} {n : Int} (least : -(2 ^ 31) ≤ n)
    (most : n < 2 ^ 31) : Position.ofInt operation n = .ok n :=
  if_pos ⟨least, most⟩

namespace ChartLayout

/-- The widths of the bands around a plot area, as numbers. -/
theorem bands : margin = 20 ∧ titleBand = 32 ∧ leftBand = 70 ∧ bottomBand = 50 :=
  ⟨rfl, rfl, rfl, rfl⟩

/-- The layout of an image whose sides are positions. -/
def ofSides (width height : Nat) : ChartLayout :=
  ⟨Thirds.cut (width - margin - margin) leftBand,
   Thirds.cut (height - margin - (margin + titleBand)) bottomBand⟩

/-- The three ways to cut a band off an extent. -/
theorem cut_cases (extent band : Int) :
    (band ≤ extent ∧ Thirds.cut extent band = ⟨band, extent - band, 0⟩) ∨
      (extent < band ∧ 0 ≤ extent ∧ Thirds.cut extent band = ⟨extent, 0, band - extent⟩) ∨
      (extent < band ∧ extent < 0 ∧ Thirds.cut extent band = ⟨0, -extent, band⟩) := by
  unfold Thirds.cut
  by_cases wide : band ≤ extent
  · exact Or.inl ⟨wide, if_pos wide⟩
  · rw [if_neg wide]
    by_cases some : 0 ≤ extent
    · exact Or.inr (Or.inl ⟨by omega, some, if_pos some⟩)
    · exact Or.inr (Or.inr ⟨by omega, by omega, if_neg some⟩)

/-- What is left in the middle is below a limit that the extent does not pass by more than the
band. -/
theorem middle_cut_lt {extent band limit : Int} (pos : 0 < limit) (low : -limit < extent)
    (high : extent < limit + band) : (Thirds.cut extent band).middle < limit := by
  rcases cut_cases extent band with ⟨-, cut⟩ | ⟨-, -, cut⟩ | ⟨-, -, cut⟩ <;>
  · rw [cut]
    dsimp only
    omega

section Sides

variable {width height : UInt32}

/-- An image with sides below `2 ^ 31` has a frame, the margins taken off. -/
theorem frame_eq_ok (hw : width.toNat < 2 ^ 31) (hh : height.toNat < 2 ^ 31) :
    frame width height = .ok (width.toNat - margin - margin, height.toNat - margin) := by
  obtain ⟨gap, top, left, bottom⟩ := bands
  have right : Position.sub width.toNat margin = .ok (width.toNat - margin) :=
    Position.ofInt_eq_ok (by omega) (by omega)
  have bottom : Position.sub height.toNat margin = .ok (height.toNat - margin) :=
    Position.ofInt_eq_ok (by omega) (by omega)
  have inner : Position.sub (width.toNat - margin) margin = .ok (width.toNat - margin - margin) :=
    Position.ofInt_eq_ok (by omega) (by omega)
  unfold frame
  rw [Position.ofSide_of_lt hw, Position.ofSide_of_lt hh, right, bottom]
  simp only [bind, Except.bind]
  rw [inner]
  rfl

/-- The columns of the plot area are positions, for every width below `2 ^ 31`. -/
theorem middle_columns_lt (hw : width.toNat < 2 ^ 31) :
    (Thirds.cut (width.toNat - margin - margin) leftBand).middle < 2 ^ 31 := by
  obtain ⟨gap, top, left, bottom⟩ := bands
  apply middle_cut_lt <;> omega

/-- The rows of the plot area are positions, with room for a legend, for every height below `2 ^
31`. -/
theorem middle_rows_lt (hh : height.toNat < 2 ^ 31) :
    (Thirds.cut (height.toNat - margin - (margin + titleBand)) bottomBand).middle
      < 2 ^ 31 - 122 := by
  obtain ⟨gap, top, left, bottom⟩ := bands
  apply middle_cut_lt <;> omega

/-- An image with sides below `2 ^ 31` has room for its title and its labels cut off without
overflow. -/
theorem belowTitle_eq_ok (hw : width.toNat < 2 ^ 31) (hh : height.toNat < 2 ^ 31) :
    belowTitle (width.toNat - margin - margin) (height.toNat - margin) =
      .ok (ofSides width.toNat height.toNat) := by
  obtain ⟨gap, top, left, bottom⟩ := bands
  have below : Position.sub (height.toNat - margin) (margin + titleBand) =
      .ok (height.toNat - margin - (margin + titleBand)) :=
    Position.ofInt_eq_ok (by omega) (by omega)
  have band : Position.add (height.toNat - margin - (margin + titleBand)) (-bottomBand) =
      .ok (height.toNat - margin - (margin + titleBand) + -bottomBand) :=
    Position.ofInt_eq_ok (by omega) (by omega)
  have nonneg : 0 ≤ (Thirds.cut (width.toNat - margin - margin) leftBand).middle :=
    (Thirds.nonneg_cut (by decide)).2.1
  have middle : Position.ofInt .subtraction
      (Thirds.cut (width.toNat - margin - margin) leftBand).middle =
        .ok (Thirds.cut (width.toNat - margin - margin) leftBand).middle :=
    Position.ofInt_eq_ok (by omega) (middle_columns_lt hw)
  unfold belowTitle
  rw [below]
  simp only [bind, Except.bind]
  rw [band]
  dsimp only
  rw [middle]
  rfl

/-- An image whose sides are positions has a layout. -/
theorem ofSize_eq_ok (hw : width.toNat < 2 ^ 31) (hh : height.toNat < 2 ^ 31) :
    ofSize width height = .ok (ofSides width.toNat height.toNat) := by
  unfold ofSize
  rw [frame_eq_ok hw hh]
  dsimp only
  rw [belowTitle_eq_ok hw hh]
  rfl

/-- Half of a number, rounded towards zero, is at most one half away from it. -/
theorem two_mul_tdiv_two (a : Int) : a - 1 ≤ 2 * a.tdiv 2 ∧ 2 * a.tdiv 2 ≤ a + 1 := by
  rcases le_total 0 a with nonneg | nonpos
  · rw [Int.tdiv_eq_ediv_of_nonneg nonneg]
    omega
  · obtain ⟨b, rfl⟩ : ∃ b, a = -b := ⟨-a, by omega⟩
    rw [Int.neg_tdiv, Int.tdiv_eq_ediv_of_nonneg (by omega)]
    omega

/-- The lines of a legend stand between its lower and its upper end. -/
theorem legendTop_bounds (layout : ChartLayout) {lines line : Nat} (h : line < lines) :
    layout.rows.middle ≤ 2 * layout.legendTop lines line + 15 * lines ∧
      2 * layout.legendTop lines line ≤ layout.rows.middle + 15 * lines - 23 := by
  have spacing : legendDistance = 15 := rfl
  have padding : legendPadding = 10 := rfl
  have text : legendText = 9 := rfl
  have := two_mul_tdiv_two (layout.rows.middle - (legendHeight lines + 2 * legendPadding))
  unfold legendTop
  unfold legendHeight at this ⊢
  rw [spacing, padding, text] at *
  omega

/-- A legend of at most six lines is in reach of an image whose sides are positions. -/
theorem legendFault?_eq_none (hh : height.toNat < 2 ^ 31) {lines : Nat} (few : lines ≤ 6) :
    (ofSides width.toNat height.toNat).legendFault? lines = none := by
  unfold legendFault?
  rw [List.findSome?_eq_none_iff]
  intro line member
  obtain ⟨low, high⟩ := legendTop_bounds (ofSides width.toNat height.toNat)
    (List.mem_range.1 member)
  have least : 0 ≤ (ofSides width.toNat height.toNat).rows.middle :=
    (Thirds.nonneg_cut (by decide)).2.1
  have most : (ofSides width.toNat height.toNat).rows.middle < 2 ^ 31 - 122 := middle_rows_lt hh
  have text : legendText = 9 := rfl
  have placed : (ofSides width.toNat height.toNat).samplePosition lines line =
      .ok ((ofSides width.toNat height.toNat).legendTop lines line
        + ((ofSides width.toNat height.toNat).legendTop lines line + legendText)) := by
    apply Position.ofInt_eq_ok <;> omega
  rw [placed]

end Sides

/-! ## Labels -/

section Labels

variable {extent band : Int} {layout : ChartLayout}

/-- Something is left in the middle if the extent is larger than the band, and also if it is below
zero. -/
theorem middle_cut_pos_iff (pos : 0 < band) :
    0 < (Thirds.cut extent band).middle ↔ extent < 0 ∨ band < extent := by
  rcases cut_cases extent band with ⟨wide, cut⟩ | ⟨small, some, cut⟩ | ⟨small, negative, cut⟩ <;>
  · rw [cut]
    dsimp only
    omega

/-- If there is a middle then the band lies on one side of it. -/
theorem near_cut_pos_iff (pos : 0 < band) (h : 0 < (Thirds.cut extent band).middle) :
    0 < (Thirds.cut extent band).near ↔ ¬ 0 < (Thirds.cut extent band).far := by
  rcases cut_cases extent band with ⟨wide, cut⟩ | ⟨small, some, cut⟩ | ⟨small, negative, cut⟩ <;>
  · rw [cut] at h ⊢
    dsimp only at h ⊢
    omega

/-- Only an axis along which something is left in the middle is labelled. -/
theorem middle_pos_of_mem_labelled {axis : ChartAxis} (h : axis ∈ layout.labelled) :
    match axis with
    | .horizontal => 0 < layout.columns.middle
    | .vertical => 0 < layout.rows.middle := by
  simp only [labelled, labelAreas, List.mem_map, List.mem_filter, List.mem_cons, List.not_mem_nil,
    or_false, Bool.and_eq_true, decide_eq_true_eq] at h
  obtain ⟨area, ⟨rfl | rfl | rfl | rfl, wide, high⟩, rfl⟩ := h
  · exact wide
  · exact high
  · exact wide
  · exact high

/-- Both axes are labelled, and each once, if there is a chart in the middle with a band at one of
its sides. -/
theorem labelled_perm (columns : 0 < layout.columns.middle)
    (rows : 0 < layout.rows.middle)
    (leftOrRight : 0 < layout.columns.near ↔ ¬ 0 < layout.columns.far)
    (lowerOrUpper : 0 < layout.rows.near ↔ ¬ 0 < layout.rows.far) :
    layout.labelled.Perm [.vertical, .horizontal] := by
  have swap : [ChartAxis.horizontal, .vertical].Perm [.vertical, .horizontal] :=
    List.Perm.swap _ _ _
  by_cases right : 0 < layout.columns.far <;> by_cases upper : 0 < layout.rows.far <;>
    simp [labelled, labelAreas, columns, rows, leftOrRight, lowerOrUpper, right, upper, swap]

/-- Both axes are labelled, and each once, exactly if the image leaves room for a chart between its
bands, or none for a band. -/
theorem labelled_ofSides (width height : Nat) :
    (ofSides width height).labelled.Perm [.vertical, .horizontal] ↔
      (width < 40 ∨ 110 < width) ∧ (height < 72 ∨ 122 < height) := by
  have columns : 0 < (ofSides width height).columns.middle ↔ width < 40 ∨ 110 < width := by
    obtain ⟨gap, top, left, bottom⟩ := bands
    show 0 < (Thirds.cut _ _).middle ↔ _
    rw [middle_cut_pos_iff (by decide)]
    omega
  have rows : 0 < (ofSides width height).rows.middle ↔ height < 72 ∨ 122 < height := by
    obtain ⟨gap, top, left, bottom⟩ := bands
    show 0 < (Thirds.cut _ _).middle ↔ _
    rw [middle_cut_pos_iff (by decide)]
    omega
  constructor
  · -- The area of a label is as wide, or as high, as the middle.
    intro perm
    have horizontal : ChartAxis.horizontal ∈ (ofSides width height).labelled :=
      perm.mem_iff.2 (by simp)
    have vertical : ChartAxis.vertical ∈ (ofSides width height).labelled :=
      perm.mem_iff.2 (by simp)
    exact ⟨columns.1 (middle_pos_of_mem_labelled horizontal),
      rows.1 (middle_pos_of_mem_labelled vertical)⟩
  · rintro ⟨wide, high⟩
    have wide := columns.2 wide
    have high := rows.2 high
    exact labelled_perm wide high (near_cut_pos_iff (by decide) wide)
      (near_cut_pos_iff (by decide) high)

end Labels

end ChartLayout

end AccessLatency
