import AccessLatency.Proofs.Chart.Drawable
import AccessLatency.Proofs.Chart.Extremes
import Mathlib.Tactic

/-!
# Charts of rows in another order

The order of the rows of a table is the order of the points along each curve, and shows nowhere else
in its chart: the ranges of the axes depend on which values there are, the landmarks on the machine,
and the points left out are counted. So rows in another order give a chart in the same frame, or the
same fault, and the same log: `ofTable_perm`.
-/

set_option autoImplicit false

namespace AccessLatency

/-- Two curves with one label and the same points, in whatever order. -/
def Curve.SamePoints (a b : Curve) : Prop := a.label = b.label ∧ a.points.Perm b.points

namespace Chart

/-- Two charts that differ in nothing but the order of the points of their curves. -/
structure SameFrame (c d : Chart) : Prop where
  curves : List.Forall₂ Curve.SamePoints c.curves d.curves
  landmarks : c.landmarks = d.landmarks
  xRange : c.xRange = d.xRange
  yRange : c.yRange = d.yRange
  dropped : c.dropped = d.dropped

/-- Two results of making a chart that are the same fault, or charts in the same frame. -/
inductive SameResult : Except Fault Chart → Except Fault Chart → Prop where
  | fault (why : Fault) : SameResult (.error why) (.error why)
  | chart {c d : Chart} (same : c.SameFrame d) : SameResult (.ok c) (.ok d)

variable {t u : LatencyTable} {m : Landmarks} {x y : AxisScale}

/-- In another order of the rows the curves have the same points, perhaps in another order. -/
theorem curvesOf_perm (h : t.rows.Perm u.rows) (x y : AxisScale) :
    List.Forall₂ Curve.SamePoints (curvesOf t x y) (curvesOf u x y) := by
  have random : t.randomPoints.Perm u.randomPoints := h.map _
  have sequential : t.sequentialPoints.Perm u.sequentialPoints := h.map _
  exact .cons ⟨rfl, random.filter _⟩ (.cons ⟨rfl, sequential.filter _⟩ .nil)

/-- In another order of the rows as many points are left out. -/
theorem droppedFrom_perm (h : t.rows.Perm u.rows) (x y : AxisScale) :
    droppedFrom t x y = droppedFrom u x y := by
  have random : t.randomPoints.Perm u.randomPoints := h.map _
  have sequential : t.sequentialPoints.Perm u.sequentialPoints := h.map _
  exact (random.append sequential).countP_eq _

/-- Curves with the same points have the same points taken together. -/
theorem pointsOf_perm {a b : List Curve} (same : List.Forall₂ Curve.SamePoints a b) :
    (pointsOf a).Perm (pointsOf b) := by
  induction same with
  | nil => exact List.Perm.refl _
  | cons head _ ih => exact head.2.append ih

/-- Curves with the same points have charts in the same frame. -/
theorem ofCurves_samePoints {a b : List Curve} (same : List.Forall₂ Curve.SamePoints a b)
    (landmarks : List Landmark) (dropped : Nat) (x y : AxisScale) :
    SameResult (ofCurves a landmarks dropped x y) (ofCurves b landmarks dropped x y) := by
  have points := pointsOf_perm same
  have yValues : Range.ofValues? ((pointsOf a).map Point.y) =
      Range.ofValues? ((pointsOf b).map Point.y) :=
    Range.ofValues?_congr fun _ => (points.map Point.y).mem_iff
  have xValues : Range.ofValues? ((pointsOf a).map Point.x ++ landmarks.map Landmark.x) =
      Range.ofValues? ((pointsOf b).map Point.x ++ landmarks.map Landmark.x) :=
    Range.ofValues?_congr fun _ => ((points.map Point.x).append_right _).mem_iff
  unfold ofCurves
  dsimp only
  rw [yValues, xValues]
  split
  · exact .chart ⟨same, rfl, rfl, rfl, rfl⟩
  · exact .fault _

/-- Tables of the same rows, in whatever order, have charts that differ in nothing but the order of
the points of their curves, or no chart for the same reason; and the log warns of the same points.
The numbers in the rows may be any, zeros of both signs, infinities and what is not a number
included, and the ranges are the same down to the last bit. -/
theorem ofTable_perm (h : t.rows.Perm u.rows) (m : Landmarks) (x y : AxisScale) :
    SameResult (ofTable t m x y).result (ofTable u m x y).result ∧
      (ofTable t m x y).log = (ofTable u m x y).log := by
  constructor
  · by_cases filled : t.rows = []
    · have other : u.rows = [] := (filled ▸ h).nil_eq.symm
      rw [result_ofTable_nil filled, result_ofTable_nil other]
      exact .fault _
    · have other : u.rows ≠ [] := fun none => filled (none ▸ h).eq_nil
      rw [result_ofTable filled, result_ofTable other, ← droppedFrom_perm h]
      exact ofCurves_samePoints (curvesOf_perm h x y) _ _ x y
  · rw [log_ofTable, log_ofTable, droppedFrom_perm h]

/-- A row with a positive zero and a positive number that is not a number. -/
def positiveRow : LatencyRow := ⟨100, .zero false, .nan false⟩

/-- A row with a negative zero and a negative number that is not a number. -/
def negativeRow : LatencyRow := ⟨200, .zero true, .nan true⟩

/-- Two rows that differ in signs, in both orders: the curves differ, and the frame does not. -/
theorem ofTable_perm_signs :
    [positiveRow, negativeRow].Perm [negativeRow, positiveRow] ∧
      ∃ c d,
        (ofTable ⟨[positiveRow, negativeRow]⟩ (Landmarks.ofSizes {}) .log .linear).result = .ok c ∧
        (ofTable ⟨[negativeRow, positiveRow]⟩ (Landmarks.ofSizes {}) .log .linear).result = .ok d ∧
        c.SameFrame d ∧ c.curves ≠ d.curves := by
  have swap : [positiveRow, negativeRow].Perm [negativeRow, positiveRow] := List.Perm.swap _ _ _
  have same := (ofTable_perm (t := ⟨_⟩) (u := ⟨_⟩) swap (Landmarks.ofSizes {}) .log .linear).1
  have shown : showsPoint .log .linear ⟨Binary64.ofWord 100, .zero false⟩ = true := by
    decide +kernel
  obtain ⟨c, made, curves, -⟩ := exists_chart_of_point (m := Landmarks.ofSizes {})
    (t := ⟨[positiveRow, negativeRow]⟩) (List.mem_append_left _ List.mem_cons_self) shown
  obtain ⟨d, madeOther, curvesOther, -⟩ := exists_chart_of_point (m := Landmarks.ofSizes {})
    (t := ⟨[negativeRow, positiveRow]⟩)
    (List.mem_append_left _ (List.mem_cons_of_mem _ List.mem_cons_self)) shown
  rw [made, madeOther] at same
  cases same with
  | chart frame =>
    refine ⟨swap, c, d, made, madeOther, frame, ?_⟩
    rw [curves, curvesOther]
    decide +kernel

end Chart

end AccessLatency
