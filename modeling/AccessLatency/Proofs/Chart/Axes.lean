import AccessLatency.Proofs.Chart.Landmarks
import AccessLatency.Proofs.Chart.Room
import AccessLatency.Proofs.LatencyTable.RoundTrip
import Mathlib.Tactic

/-!
# The axes of a chart

What is drawn in a chart lies on its axes, and neither axis is degenerate: `ofTable_frames`. All it
takes is that the latencies are finite and that no size of the machine is zero. The horizontal axis
is then finite, too, since array sizes are words and landmarks are not much larger; the vertical one
may end in an infinity, if the latencies are that large.
-/

set_option autoImplicit false

namespace AccessLatency

namespace Chart

variable {t : LatencyTable} {sizes : MachineSizes} {m : Landmarks} {x y : AxisScale} {c : Chart}

/-- A point that is kept is drawable, and comes from a row. -/
theorem exists_row_of_mem {p : Point} (member : p ∈ pointsOf (curvesOf t x y)) :
    p.Drawable x y ∧ ∃ r ∈ t.rows, p.x = LatencyTable.sizeCoordinate r ∧
      (p.y = r.random ∨ p.y = r.sequential) := by
  rw [pointsOf_curvesOf, List.mem_filter, showsPoint_eq, decide_eq_true_eq] at member
  obtain ⟨inTable, drawable⟩ := member
  refine ⟨drawable, ?_⟩
  rcases List.mem_append.1 inTable with random | sequential
  · obtain ⟨r, hr, rfl⟩ := List.mem_map.1 random
    dsimp only
    exact ⟨r, hr, rfl, Or.inl rfl⟩
  · obtain ⟨r, hr, rfl⟩ := List.mem_map.1 sequential
    dsimp only
    exact ⟨r, hr, rfl, Or.inr rfl⟩

/-- The numbers along the horizontal axis. -/
def xValues (c : Chart) : List Binary64 :=
  (pointsOf c.curves).map Point.x ++ c.landmarks.map Landmark.x

/-- The numbers along the vertical axis. -/
def yValues (c : Chart) : List Binary64 := (pointsOf c.curves).map Point.y

/-- The numbers along the horizontal axis can be represented on it, and are array sizes or not much
larger. -/
theorem xValues_of_ofTable (positive : sizes.IsPositive)
    (made : (ofTable t (Landmarks.ofSizes sizes) x y).result = .ok c) {v : Binary64}
    (member : v ∈ c.xValues) : Binary64.AtMost 1201 v ∧ x.Represents v := by
  obtain ⟨curves, landmarks, -⟩ := ofTable_eq_ok made
  unfold xValues at member
  rw [curves, landmarks, List.mem_append] at member
  rcases member with point | landmark
  · obtain ⟨p, hp, rfl⟩ := List.mem_map.1 point
    obtain ⟨drawable, r, -, size, -⟩ := exists_row_of_mem hp
    refine ⟨?_, drawable.1⟩
    rw [size, LatencyTable.sizeCoordinate]
    exact (Binary64.atMost_ofWord r.size).mono (by omega)
  · obtain ⟨line, hline, rfl⟩ := List.mem_map.1 landmark
    obtain ⟨ofMachine, shown⟩ := List.mem_filter.1 hline
    exact ⟨(Landmarks.within_of_mem_lines positive ofMachine).atMost, AxisScale.shows_iff.1 shown⟩

/-- The numbers along the vertical axis can be represented on it, and are latencies. -/
theorem yValues_of_ofTable (latencies : ∀ r ∈ t.rows, r.IsFinite)
    (made : (ofTable t m x y).result = .ok c) {v : Binary64} (member : v ∈ c.yValues) :
    v.isFinite = true ∧ y.Represents v := by
  obtain ⟨curves, -⟩ := ofTable_eq_ok made
  unfold yValues at member
  rw [curves] at member
  obtain ⟨p, hp, rfl⟩ := List.mem_map.1 member
  obtain ⟨drawable, r, hr, -, latency⟩ := exists_row_of_mem hp
  refine ⟨?_, drawable.2⟩
  rcases latency with random | sequential
  · rw [random]
    exact (latencies r hr).1
  · rw [sequential]
    exact (latencies r hr).2

/-- The axes of a chart of finite latencies, on a machine none of whose sizes is zero, hold all
points and landmarks that are drawn; they have a length, begin above zero if they are logarithmic,
and the horizontal one is finite. -/
theorem ofTable_frames (latencies : ∀ r ∈ t.rows, r.IsFinite) (positive : sizes.IsPositive)
    (made : (ofTable t (Landmarks.ofSizes sizes) x y).result = .ok c) :
    c.xRange.Frames x c.xValues ∧ c.yRange.Frames y c.yValues ∧ c.xRange.IsFinite := by
  obtain ⟨-, -, xEnds, yEnds, hx, hy, xRange, yRange⟩ := ofTable_eq_ok made
  have along := fun v (member : v ∈ c.xValues) => xValues_of_ofTable positive made member
  have upright := fun v (member : v ∈ c.yValues) => yValues_of_ofTable latencies made member
  rw [xRange, yRange]
  refine ⟨?_, ?_, ?_⟩
  · exact Range.frames_padded hx (fun v member => (along v member).1.isFinite)
      fun v member => (along v member).2
  · exact Range.frames_padded hy (fun v member => (upright v member).1)
      fun v member => (upright v member).2
  · obtain ⟨lower, upper⟩ := Range.mem_of_ofValues? hx
    exact Range.isFinite_padded x (along _ lower).1 (along _ upper).1 (by omega) (by omega)

/-- The smallest positive number. -/
def smallest : Binary64 := .finite false ⟨1, Binary64.fits_of_lt (by decide), by decide +kernel⟩

/-- One row with the smallest positive latencies, on logarithmic axes: the vertical axis begins at
the latency and ends at the next number. -/
theorem ofTable_frames_smallest :
    (∀ r ∈ [(⟨100, smallest, smallest⟩ : LatencyRow)], r.IsFinite) ∧
      MachineSizes.IsPositive {} ∧
      ∃ c, (ofTable ⟨[⟨100, smallest, smallest⟩]⟩ (Landmarks.ofSizes {}) .log .log).result = .ok c ∧
        c.yValues = [smallest, smallest] ∧ c.yRange.Frames .log c.yValues := by
  have latencies : ∀ r ∈ [(⟨100, smallest, smallest⟩ : LatencyRow)], r.IsFinite := by
    intro r member
    obtain rfl := List.mem_singleton.1 member
    exact ⟨rfl, rfl⟩
  have positive : MachineSizes.IsPositive {} := by constructor <;> decide
  have shown : showsPoint .log .log ⟨Binary64.ofWord 100, smallest⟩ = true := by decide +kernel
  obtain ⟨c, made, curves, -⟩ := exists_chart_of_point (m := Landmarks.ofSizes {})
    (t := ⟨[⟨100, smallest, smallest⟩]⟩) (List.mem_append_left _ List.mem_cons_self) shown
  obtain ⟨-, frames, -⟩ := ofTable_frames (t := ⟨_⟩) latencies positive made
  have values : c.yValues = [smallest, smallest] := by
    unfold yValues
    rw [curves]
    decide +kernel
  exact ⟨latencies, positive, c, made, values, frames⟩

end Chart

end AccessLatency
