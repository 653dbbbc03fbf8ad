import AccessLatency.Proofs.Chart.OfTable
import Mathlib.Tactic

/-!
# What a chart keeps of a table

An axis represents all values, or, if it is logarithmic, those above zero. A point is drawable if
each axis represents its coordinate. The chart of a table keeps the drawable points of each curve, in
the order of the table, and the landmarks that the horizontal axis represents. It counts the points
that it leaves out, and the log warns of them, whether there is a chart in the end or not:
`ofTable_keeps_drawable`.
-/

set_option autoImplicit false

namespace AccessLatency

/-- A number above zero; what is not a number is not. -/
def Binary64.IsPositive (v : Binary64) : Prop := ∃ q, v.value? = some q ∧ 0 < q

/-- A number is above zero as the order has it exactly if its value is positive. -/
theorem Binary64.zero_lt_iff {v : Binary64} : lt (zero false) v = true ↔ v.IsPositive := by
  have zero : value? (zero false) = some 0 := rfl
  unfold lt IsPositive
  rw [zero]
  cases value? v <;> simp

instance (v : Binary64) : Decidable v.IsPositive := decidable_of_iff _ Binary64.zero_lt_iff

/-- An axis can represent a value: on a logarithmic axis it has to be positive. -/
def AxisScale.Represents (scale : AxisScale) (v : Binary64) : Prop := scale = .log → v.IsPositive

instance (scale : AxisScale) (v : Binary64) : Decidable (scale.Represents v) :=
  inferInstanceAs (Decidable (_ → _))

/-- Both axes can represent a point. -/
def Point.Drawable (x y : AxisScale) (p : Point) : Prop := x.Represents p.x ∧ y.Represents p.y

instance (x y : AxisScale) (p : Point) : Decidable (p.Drawable x y) :=
  inferInstanceAs (Decidable (_ ∧ _))

/-- An axis shows exactly the values that it can represent. -/
theorem AxisScale.shows_iff {scale : AxisScale} {v : Binary64} :
    scale.shows v = true ↔ scale.Represents v := by
  cases scale with
  | log => simp [shows, Represents, Binary64.zero_lt_iff]
  | linear => simp [shows, Represents]

namespace Chart

variable {t : LatencyTable} {m : Landmarks} {x y : AxisScale}

/-- A chart shows exactly the drawable points. -/
theorem showsPoint_eq (p : Point) : showsPoint x y p = decide (p.Drawable x y) := by
  rw [Bool.eq_iff_iff, decide_eq_true_eq]
  simp [showsPoint, Point.Drawable, AxisScale.shows_iff]

/-- The points that are shown are the drawable ones. -/
theorem filter_showsPoint (points : List Point) :
    points.filter (showsPoint x y) = points.filter fun p => p.Drawable x y :=
  List.filter_congr fun p _ => showsPoint_eq p

/-- The curves of a table have the drawable points of its columns. -/
theorem curvesOf_eq :
    curvesOf t x y =
      [⟨"Random access", t.randomPoints.filter fun p => p.Drawable x y⟩,
       ⟨"Sequential access", t.sequentialPoints.filter fun p => p.Drawable x y⟩] := by
  simp only [curvesOf, filter_showsPoint]

/-- The landmarks that are shown are those that the horizontal axis can represent. -/
theorem shownLandmarks_eq :
    shownLandmarks m x = m.lines.filter fun line => x.Represents line.x := by
  apply List.filter_congr
  intro line _
  rw [Bool.eq_iff_iff, decide_eq_true_eq]
  exact AxisScale.shows_iff

/-- The number of points of a table that are not drawable. -/
def undrawable (t : LatencyTable) (x y : AxisScale) : Nat :=
  (t.randomPoints ++ t.sequentialPoints).countP fun p => ¬ p.Drawable x y

/-- What is counted as left out are the points that are not drawable. -/
theorem droppedFrom_eq : droppedFrom t x y = undrawable t x y := by
  unfold droppedFrom undrawable
  apply List.countP_congr
  intro p _
  simp [showsPoint_eq]

/-- The points that are kept and those that are left out are two for each row. -/
theorem length_pointsOf_add_droppedFrom :
    (pointsOf (curvesOf t x y)).length + droppedFrom t x y = 2 * t.rows.length := by
  have all := List.length_eq_countP_add_countP (showsPoint x y)
    (l := t.randomPoints ++ t.sequentialPoints)
  have rows : (t.randomPoints ++ t.sequentialPoints).length = 2 * t.rows.length := by
    simp [LatencyTable.randomPoints, LatencyTable.sequentialPoints]
    omega
  have hidden : droppedFrom t x y =
      (t.randomPoints ++ t.sequentialPoints).countP fun p => ¬ showsPoint x y p = true := by
    simp [droppedFrom]
  rw [pointsOf_curvesOf, ← List.countP_eq_length_filter, hidden, ← all, rows]

/-- The log of a table with no rows is empty, as is that of a table all of whose points are kept. -/
theorem log_ofTable :
    (ofTable t m x y).log =
      if 0 < droppedFrom t x y then [⟨.warn, droppedWarning (droppedFrom t x y) x y⟩] else [] := by
  by_cases filled : t.rows = []
  · have none : droppedFrom t x y = 0 := by
      simp [droppedFrom, LatencyTable.randomPoints, LatencyTable.sequentialPoints, filled]
    simp [ofTable, filled, none, Outcome.fail]
  · have filled : t.rows.isEmpty = false := List.isEmpty_eq_false_iff.2 filled
    unfold ofTable
    rw [filled]
    dsimp only
    by_cases some : 0 < droppedFrom t x y
    · simp [some, Outcome.recordIf, Outcome.record, Outcome.bind, Outcome.ofExcept]
    · simp [some, Outcome.recordIf, Outcome.ok, Outcome.bind, Outcome.ofExcept]

/-- A table with a drawable point has a chart of what is drawable. -/
theorem exists_chart_of_drawable
    (some : ∃ p ∈ t.randomPoints ++ t.sequentialPoints, p.Drawable x y) :
    ∃ c, (ofTable t m x y).result = .ok c ∧ c.curves = curvesOf t x y ∧
      c.landmarks = shownLandmarks m x ∧ c.dropped = droppedFrom t x y := by
  obtain ⟨p, member, drawable⟩ := some
  apply exists_chart_of_point member
  rw [showsPoint_eq]
  exact decide_eq_true drawable

/-- A table with rows but without a drawable point has no chart. -/
theorem result_ofTable_of_undrawable (filled : t.rows ≠ [])
    (none : ∀ p ∈ t.randomPoints ++ t.sequentialPoints, ¬ p.Drawable x y) :
    (ofTable t m x y).result = .error .nothingToShow := by
  apply result_ofTable_of_hidden filled
  intro p member
  rw [showsPoint_eq]
  exact decide_eq_false (none p member)

/-- Each row of a table has two points, its random and its sequential latency over its size. A table
without rows has no chart, and neither has one without a drawable point. Any other table has a chart
of its drawable points and of the landmarks that the horizontal axis represents, all in their order.
The points that are not drawable are counted, and the log holds a warning about them, and nothing
else, exactly if there are any. -/
theorem ofTable_keeps_drawable (t : LatencyTable) (m : Landmarks) (x y : AxisScale) :
    let random := t.rows.map fun r => (⟨.ofWord r.size, r.random⟩ : Point)
    let sequential := t.rows.map fun r => (⟨.ofWord r.size, r.sequential⟩ : Point)
    let hidden := (random ++ sequential).countP fun p => ¬ p.Drawable x y
    ((ofTable t m x y).result = .error .emptyTable ↔ t.rows = []) ∧
    ((ofTable t m x y).result = .error .nothingToShow ↔
      t.rows ≠ [] ∧ ∀ p ∈ random ++ sequential, ¬ p.Drawable x y) ∧
    ((∃ p ∈ random ++ sequential, p.Drawable x y) →
      ∃ c, (ofTable t m x y).result = .ok c ∧
        c.curves =
          [⟨"Random access", random.filter fun p => p.Drawable x y⟩,
           ⟨"Sequential access", sequential.filter fun p => p.Drawable x y⟩] ∧
        c.landmarks = m.lines.filter (fun line => x.Represents line.x) ∧
        c.dropped = hidden ∧
        (pointsOf c.curves).length + c.dropped = 2 * t.rows.length) ∧
    (ofTable t m x y).log =
      if 0 < hidden then
        [⟨.warn, "Dropped " ++ toString hidden
          ++ " points that cannot be shown on a " ++ x.name ++ " x / " ++ y.name ++ " y chart"⟩]
      else [] := by
  -- The two lists are the columns of the table, point by point.
  show _ ∧ (_ ↔ _ ∧ ∀ p ∈ t.randomPoints ++ t.sequentialPoints, _) ∧ _
  refine ⟨⟨?_, result_ofTable_nil⟩, ⟨?_, ?_⟩, ?_, ?_⟩
  · intro failed
    by_contra filled
    by_cases some : ∃ p ∈ t.randomPoints ++ t.sequentialPoints, p.Drawable x y
    · obtain ⟨c, made, -⟩ := exists_chart_of_drawable (m := m) some
      simp [made] at failed
    · push Not at some
      simp [result_ofTable_of_undrawable filled some] at failed
  · intro failed
    constructor
    · intro empty
      simp [result_ofTable_nil empty] at failed
    · intro p member drawable
      obtain ⟨c, made, -⟩ := exists_chart_of_drawable (m := m) ⟨p, member, drawable⟩
      simp [made] at failed
  · rintro ⟨filled, none⟩
    exact result_ofTable_of_undrawable filled none
  · intro some
    obtain ⟨c, made, curves, landmarks, dropped⟩ := exists_chart_of_drawable (m := m) some
    refine ⟨c, made, curves.trans curvesOf_eq, landmarks.trans shownLandmarks_eq,
      dropped.trans droppedFrom_eq, ?_⟩
    rw [curves, dropped]
    exact length_pointsOf_add_droppedFrom
  · rw [log_ofTable, droppedFrom_eq]
    rfl

/-- One row with a positive and a negative latency on logarithmic axes: the negative one is left
out, and the log says so. -/
theorem ofTable_one_hidden :
    ∃ c, (ofTable ⟨[⟨100, Binary64.ofNat 1, (Binary64.ofNat 1).neg⟩]⟩ (Landmarks.ofSizes {})
          .log .log).result = .ok c ∧
      c.curves.map (fun curve => curve.points.length) = [1, 0] ∧ c.dropped = 1 ∧
      (ofTable ⟨[⟨100, Binary64.ofNat 1, (Binary64.ofNat 1).neg⟩]⟩ (Landmarks.ofSizes {})
          .log .log).log =
        [⟨.warn, "Dropped 1 points that cannot be shown on a log x / log y chart"⟩] := by
  have random : Point.Drawable .log .log ⟨Binary64.ofWord 100, Binary64.ofNat 1⟩ := by
    decide +kernel
  have sequential : ¬ Point.Drawable .log .log ⟨Binary64.ofWord 100, (Binary64.ofNat 1).neg⟩ := by
    decide +kernel
  obtain ⟨-, -, made, log⟩ := ofTable_keeps_drawable
    ⟨[⟨100, Binary64.ofNat 1, (Binary64.ofNat 1).neg⟩]⟩ (Landmarks.ofSizes {}) .log .log
  simp only [List.map_cons, List.map_nil] at made log
  obtain ⟨c, result, curves, -, dropped, -⟩ := made ⟨_, List.mem_cons_self, random⟩
  refine ⟨c, result, ?_, ?_, ?_⟩
  · simp [curves, random, sequential]
  · simp [dropped, random, sequential]
  · rw [log]
    simp [random, sequential]
    rfl

end Chart

end AccessLatency
