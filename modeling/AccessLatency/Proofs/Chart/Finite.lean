import AccessLatency.Proofs.Chart.OfTable
import Mathlib.Tactic

/-!
# Finite ranges

The range of an axis holds all values on it, and room at both ends does not make a value finite that
is not. So if the ends of a range are finite then all values on its axis are: a chart with finite
ranges is finite altogether, `isFinite_of_ranges`.
-/

set_option autoImplicit false

namespace AccessLatency

namespace Binary64

/-- A finite product has a finite first factor. -/
theorem isFinite_of_mul {a b : Binary64} (h : (mul a b).isFinite = true) : a.isFinite = true := by
  cases a with
  | finite s m => rfl
  | nan s p => exact h
  | infinity s =>
    cases b with
    | nan t q => exact h
    | infinity t => exact h
    | finite t n =>
      dsimp only [mul] at h
      by_cases none : n.quanta = 0
      · rw [if_pos none] at h
        exact h
      · rw [if_neg none] at h
        exact h

/-- A finite quotient has a finite dividend. -/
theorem isFinite_of_div {a b : Binary64} (h : (div a b).isFinite = true) : a.isFinite = true := by
  cases a with
  | finite s m => rfl
  | nan s p => exact h
  | infinity s => cases b <;> exact h

/-- A finite sum has a finite first term. -/
theorem isFinite_of_add {a b : Binary64} (h : (add a b).isFinite = true) : a.isFinite = true := by
  cases a with
  | finite s m => rfl
  | nan s p => exact h
  | infinity s =>
    cases b with
    | nan t q => exact h
    | finite t n => exact h
    | infinity t =>
      dsimp only [add] at h
      by_cases same : s = t
      · rw [if_pos same] at h
        exact h
      · rw [if_neg same] at h
        exact h

/-- A finite difference has a finite first term. -/
theorem isFinite_of_sub {a b : Binary64} (h : (sub a b).isFinite = true) : a.isFinite = true := by
  cases a with
  | finite s m => rfl
  | nan s p => exact h
  | infinity s =>
    cases b with
    | nan t q => exact h
    | finite t n => exact isFinite_of_add (b := neg (.finite t n)) h
    | infinity t => exact isFinite_of_add (b := neg (.infinity t)) h

/-- The finite numbers are those between the infinities in the total order. -/
theorem isFinite_iff {v : Binary64} :
    v.isFinite = true ↔ -(quantaLimit : Int) - 1 < v.totalRank ∧ v.totalRank < quantaLimit := by
  -- The limit is kept apart, lest its digits are computed.
  cases v with
  | nan s p =>
    simp only [isFinite, totalRank, isNegative, totalDistance]
    generalize quantaLimit = limit
    cases s <;> simp
  | infinity s =>
    simp only [isFinite, totalRank, isNegative, totalDistance]
    generalize quantaLimit = limit
    cases s <;> simp
  | finite s m =>
    have bounded := m.bounded
    simp only [isFinite, totalRank, isNegative, totalDistance]
    generalize quantaLimit = limit at bounded ⊢
    cases s <;> simp <;> omega

/-- What is between two finite numbers in the total order is finite. -/
theorem isFinite_of_between {lower v upper : Binary64} (hl : lower.isFinite = true)
    (hu : upper.isFinite = true) (least : lower.totalRank ≤ v.totalRank)
    (most : v.totalRank ≤ upper.totalRank) : v.isFinite = true := by
  rw [isFinite_iff] at *
  omega

end Binary64

/-- A point with finite coordinates. -/
def Point.IsFinite (p : Point) : Prop := p.x.isFinite = true ∧ p.y.isFinite = true

namespace Range

/-- A range with finite ends. -/
def IsFinite (r : Range) : Prop := r.lower.isFinite = true ∧ r.upper.isFinite = true

/-- The lesser of two numbers has the lesser place in the total order. -/
theorem totalRank_lesser (a b : Binary64) :
    (lesser a b).totalRank = min a.totalRank b.totalRank := by
  unfold lesser Binary64.totalLe
  by_cases h : a.totalRank ≤ b.totalRank
  · simp [h]
  · simp [h]
    omega

/-- The greater of two numbers has the greater place in the total order. -/
theorem totalRank_greater (a b : Binary64) :
    (greater a b).totalRank = max a.totalRank b.totalRank := by
  unfold greater Binary64.totalLe
  by_cases h : a.totalRank ≤ b.totalRank
  · simp [h]
  · simp [h]
    omega

/-- The least of several numbers is before each of them in the total order, or at the same place. -/
theorem totalRank_foldl_lesser_le (rest : List Binary64) (v : Binary64) :
    (rest.foldl lesser v).totalRank ≤ v.totalRank ∧
      ∀ w ∈ rest, (rest.foldl lesser v).totalRank ≤ w.totalRank := by
  induction rest generalizing v with
  | nil => simp
  | cons u rest ih =>
    obtain ⟨first, others⟩ := ih (lesser v u)
    rw [totalRank_lesser] at first
    rw [List.foldl_cons, List.forall_mem_cons]
    exact ⟨by omega, by omega, others⟩

/-- The greatest of several numbers is behind each of them in the total order, or at the same
place. -/
theorem le_totalRank_foldl_greater (rest : List Binary64) (v : Binary64) :
    v.totalRank ≤ (rest.foldl greater v).totalRank ∧
      ∀ w ∈ rest, w.totalRank ≤ (rest.foldl greater v).totalRank := by
  induction rest generalizing v with
  | nil => simp
  | cons u rest ih =>
    obtain ⟨first, others⟩ := ih (greater v u)
    rw [totalRank_greater] at first
    rw [List.foldl_cons, List.forall_mem_cons]
    exact ⟨by omega, by omega, others⟩

/-- A range of values holds each of them. -/
theorem totalRank_of_ofValues? {values : List Binary64} {r : Range} (h : ofValues? values = some r)
    {w : Binary64} (member : w ∈ values) :
    r.lower.totalRank ≤ w.totalRank ∧ w.totalRank ≤ r.upper.totalRank := by
  cases values with
  | nil => cases h
  | cons v rest =>
    obtain rfl := Option.some.inj h
    obtain ⟨least, leastRest⟩ := totalRank_foldl_lesser_le rest v
    obtain ⟨most, mostRest⟩ := le_totalRank_foldl_greater rest v
    rcases List.mem_cons.1 member with rfl | later
    · exact ⟨least, most⟩
    · exact ⟨leastRest w later, mostRest w later⟩

/-- If a range with room around it has finite ends, so has the range itself. -/
theorem isFinite_of_padded {scale : AxisScale} {r : Range} (h : (padded scale r).IsFinite) :
    r.IsFinite := by
  obtain ⟨lower, upper⟩ := h
  cases scale with
  | log => exact ⟨Binary64.isFinite_of_div lower, Binary64.isFinite_of_mul upper⟩
  | linear => exact ⟨Binary64.isFinite_of_sub lower, Binary64.isFinite_of_add upper⟩

/-- If a range with room around it has finite ends, all values that it was made for are finite. -/
theorem isFinite_of_mem {scale : AxisScale} {values : List Binary64} {r : Range}
    (h : ofValues? values = some r) (ends : (padded scale r).IsFinite) {w : Binary64}
    (member : w ∈ values) : w.isFinite = true := by
  obtain ⟨lower, upper⟩ := isFinite_of_padded ends
  obtain ⟨least, most⟩ := totalRank_of_ofValues? h member
  exact Binary64.isFinite_of_between lower upper least most

end Range

namespace Chart

/-- A chart all of whose numbers are finite. -/
structure IsFinite (c : Chart) : Prop where
  points : ∀ curve ∈ c.curves, ∀ p ∈ curve.points, p.IsFinite
  landmarks : ∀ line ∈ c.landmarks, line.x.isFinite = true
  xRange : c.xRange.IsFinite
  yRange : c.yRange.IsFinite

variable {t : LatencyTable} {m : Landmarks} {x y : AxisScale} {c : Chart}

/-- The axes of a chart have room for the values of its points and landmarks. -/
theorem ofTable_eq_ok (made : (ofTable t m x y).result = .ok c) :
    c.curves = curvesOf t x y ∧ c.landmarks = shownLandmarks m x ∧
      ∃ xValues yValues,
        Range.ofValues? ((pointsOf c.curves).map Point.x ++ c.landmarks.map Landmark.x)
          = some xValues ∧
        Range.ofValues? ((pointsOf c.curves).map Point.y) = some yValues ∧
        c.xRange = Range.padded x xValues ∧ c.yRange = Range.padded y yValues := by
  by_cases filled : t.rows = []
  · rw [result_ofTable_nil filled] at made
    cases made
  · rw [result_ofTable filled] at made
    unfold ofCurves at made
    dsimp only at made
    split at made
    · rename_i yValues xValues hy hx
      obtain rfl := Except.ok.inj made
      exact ⟨rfl, rfl, xValues, yValues, hx, hy, rfl, rfl⟩
    · cases made

/-- A chart with finite ranges is finite altogether. -/
theorem isFinite_of_ranges (made : (ofTable t m x y).result = .ok c)
    (xFinite : c.xRange.IsFinite) (yFinite : c.yRange.IsFinite) : c.IsFinite := by
  obtain ⟨-, -, xValues, yValues, hx, hy, xPadded, yPadded⟩ := ofTable_eq_ok made
  refine ⟨?_, ?_, xFinite, yFinite⟩
  · intro curve hcurve p hp
    have member : p ∈ pointsOf c.curves := List.mem_flatMap.2 ⟨curve, hcurve, hp⟩
    constructor
    · apply Range.isFinite_of_mem hx (xPadded ▸ xFinite)
      exact List.mem_append_left _ (List.mem_map_of_mem member)
    · apply Range.isFinite_of_mem hy (yPadded ▸ yFinite)
      exact List.mem_map_of_mem member
  · intro line hline
    apply Range.isFinite_of_mem hx (xPadded ▸ xFinite)
    exact List.mem_append_right _ (List.mem_map_of_mem hline)

end Chart

end AccessLatency
