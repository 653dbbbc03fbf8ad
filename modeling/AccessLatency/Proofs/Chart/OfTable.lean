import AccessLatency.Chart.Basic
import Mathlib.Tactic

/-!
# The chart of a table

What `Chart.ofTable` returns, in terms of the points that its axes can show: nothing for an empty
table, and else the chart of the curves that are left, unless no point is. If the axes can show all
points then none is left out.
-/

set_option autoImplicit false

namespace AccessLatency

/-- There is no range exactly if there are no values. -/
theorem Range.ofValues?_eq_none_iff {values : List Binary64} :
    Range.ofValues? values = none ↔ values = [] := by
  cases values with
  | nil => simp [Range.ofValues?]
  | cons v rest => simp [Range.ofValues?]

namespace Chart

variable {t : LatencyTable} {m : Landmarks} {x y : AxisScale}

/-- A table without rows has no chart. -/
theorem result_ofTable_nil (h : t.rows = []) : (ofTable t m x y).result = .error .emptyTable := by
  unfold ofTable
  rw [h]
  rfl

/-- A table with rows has the chart of its curves. -/
theorem result_ofTable (h : t.rows ≠ []) :
    (ofTable t m x y).result =
      ofCurves (curvesOf t x y) (shownLandmarks m x) (droppedFrom t x y) x y := by
  have filled : t.rows.isEmpty = false := List.isEmpty_eq_false_iff.2 h
  unfold ofTable
  rw [filled]
  have warned : ∀ condition message,
      (Outcome.recordIf (ε := Fault) condition .warn message).result = .ok () := by
    intro condition message
    cases condition <;> rfl
  show (Outcome.bind _ _).result = _
  rw [Outcome.result_bind_ok (warned _ _)]
  rfl

/-- Curves with a point have a chart, and the chart keeps what it is made of. -/
theorem ofCurves_eq_ok {curves : List Curve} (landmarks : List Landmark) (dropped : Nat)
    (h : pointsOf curves ≠ []) :
    ∃ c, ofCurves curves landmarks dropped x y = .ok c ∧ c.curves = curves ∧
      c.landmarks = landmarks ∧ c.dropped = dropped := by
  have yValues : (pointsOf curves).map Point.y ≠ [] := by
    rwa [ne_eq, List.map_eq_nil_iff]
  have xValues : (pointsOf curves).map Point.x ++ landmarks.map Landmark.x ≠ [] := by
    intro none
    exact h (List.map_eq_nil_iff.1 (List.append_eq_nil_iff.1 none).1)
  obtain ⟨yRange, hy⟩ := Option.ne_none_iff_exists'.1 (mt Range.ofValues?_eq_none_iff.1 yValues)
  obtain ⟨xRange, hx⟩ := Option.ne_none_iff_exists'.1 (mt Range.ofValues?_eq_none_iff.1 xValues)
  unfold ofCurves
  dsimp only
  rw [hy, hx]
  exact ⟨_, rfl, rfl, rfl, rfl⟩

/-- Curves without a point have no chart, whatever the landmarks are. -/
theorem ofCurves_eq_error {curves : List Curve} (landmarks : List Landmark) (dropped : Nat)
    (h : pointsOf curves = []) :
    ofCurves curves landmarks dropped x y = .error .nothingToShow := by
  have yValues : Range.ofValues? ((pointsOf curves).map Point.y) = none := by
    rw [Range.ofValues?_eq_none_iff, h, List.map_nil]
  unfold ofCurves
  dsimp only
  rw [yValues]

/-- The points of the curves are those of both columns that are shown. -/
theorem pointsOf_curvesOf :
    pointsOf (curvesOf t x y) =
      (t.randomPoints ++ t.sequentialPoints).filter (showsPoint x y) := by
  simp [pointsOf, curvesOf]

/-- A table none of whose points can be shown has no chart. -/
theorem result_ofTable_of_hidden (filled : t.rows ≠ [])
    (hidden : ∀ p ∈ t.randomPoints ++ t.sequentialPoints, showsPoint x y p = false) :
    (ofTable t m x y).result = .error .nothingToShow := by
  rw [result_ofTable filled]
  apply ofCurves_eq_error
  rw [pointsOf_curvesOf, List.filter_eq_nil_iff]
  intro p hp
  simp [hidden p hp]

/-- A table with a point that can be shown has a chart, which keeps all that can be shown. -/
theorem exists_chart_of_point {p : Point} (member : p ∈ t.randomPoints ++ t.sequentialPoints)
    (shown : showsPoint x y p = true) :
    ∃ c, (ofTable t m x y).result = .ok c ∧ c.curves = curvesOf t x y ∧
      c.landmarks = shownLandmarks m x ∧ c.dropped = droppedFrom t x y := by
  have filled : t.rows ≠ [] := by
    intro none
    simp [LatencyTable.randomPoints, LatencyTable.sequentialPoints, none] at member
  have points : pointsOf (curvesOf t x y) ≠ [] := by
    rw [pointsOf_curvesOf]
    exact List.ne_nil_of_mem (List.mem_filter.2 ⟨member, shown⟩)
  obtain ⟨c, ok, kept⟩ :=
    ofCurves_eq_ok (x := x) (y := y) (shownLandmarks m x) (droppedFrom t x y) points
  exact ⟨c, (result_ofTable filled).trans ok, kept⟩

/-- A table with a point that is shown has a chart. -/
theorem result_ofTable_of_point {p : Point} (member : p ∈ t.randomPoints ++ t.sequentialPoints)
    (shown : showsPoint x y p = true) : ∃ c, (ofTable t m x y).result = .ok c := by
  obtain ⟨c, made, -⟩ := exists_chart_of_point (m := m) member shown
  exact ⟨c, made⟩

/-- A table all of whose points can be shown has a chart that leaves none of them out. -/
theorem result_ofTable_of_shown (filled : t.rows ≠ [])
    (shown : ∀ p ∈ t.randomPoints ++ t.sequentialPoints, showsPoint x y p = true) :
    ∃ c, (ofTable t m x y).result = .ok c ∧ c.dropped = 0 ∧
      c.curves.map Curve.points = [t.randomPoints, t.sequentialPoints] ∧
      c.landmarks = shownLandmarks m x := by
  have random : t.randomPoints.filter (showsPoint x y) = t.randomPoints :=
    List.filter_eq_self.2 fun p hp => shown p (List.mem_append_left _ hp)
  have sequential : t.sequentialPoints.filter (showsPoint x y) = t.sequentialPoints :=
    List.filter_eq_self.2 fun p hp => shown p (List.mem_append_right _ hp)
  have curves : (curvesOf t x y).map Curve.points = [t.randomPoints, t.sequentialPoints] := by
    unfold curvesOf
    rw [random, sequential]
    rfl
  have dropped : droppedFrom t x y = 0 := by
    unfold droppedFrom
    rw [List.countP_eq_zero]
    intro p hp
    simp [shown p hp]
  have points : pointsOf (curvesOf t x y) ≠ [] := by
    unfold pointsOf
    rw [List.flatMap_def, curves]
    intro none
    have first : t.randomPoints = [] := by
      rw [List.flatten_cons] at none
      exact (List.append_eq_nil_iff.1 none).1
    exact filled (List.map_eq_nil_iff.1 first)
  obtain ⟨c, ok, keptCurves, keptLandmarks, keptDropped⟩ :=
    ofCurves_eq_ok (x := x) (y := y) (shownLandmarks m x) (droppedFrom t x y) points
  refine ⟨c, (result_ofTable filled).trans ok, keptDropped.trans dropped, ?_, keptLandmarks⟩
  rw [keptCurves, curves]

end Chart

end AccessLatency
