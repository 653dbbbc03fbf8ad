import AccessLatency.Proofs.Binary64.Monotone
import AccessLatency.Proofs.Chart.Finite
import AccessLatency.Proofs.LatencyTable.Dialect
import Mathlib.Tactic

/-!
# Order of rows and direction of curves

The reader compares each row with the one before it. That is enough: if no row is smaller than the one
before it then none is smaller than any before it, so a warning is given exactly for a table with two
rows, however far apart, of which the later is the smaller one, `isSorted_eq_false_iff`. The rows stay
where they are.

The curves of a table without such rows run from left to right. Their points are some of those of the
rows, in the order of the rows, and of two sizes the larger is nearest to no smaller number; only that
different sizes stay apart is not said, and beyond `2 ^ 53` it is not so.
-/

set_option autoImplicit false

namespace AccessLatency

/-- No point is to the left of one in front of it. -/
def Curve.LeftToRight (curve : Curve) : Prop :=
  curve.points.Pairwise fun p q => Binary64.le p.x q.x = true

namespace LatencyTable

/-- Two rows of a table, next to each other or not, the later of which has the smaller size. -/
def Disordered (t : LatencyTable) : Prop :=
  ∃ (i j : Nat) (a b : LatencyRow), i < j ∧ t.rows[i]? = some a ∧ t.rows[j]? = some b ∧
    b.size < a.size

variable {t : LatencyTable}

/-- If no size is followed directly by a smaller one, none is followed by a smaller one at all. -/
theorem isSorted_iff_pairwise : t.isSorted = true ↔ t.rows.Pairwise fun a b => a.size ≤ b.size := by
  unfold isSorted
  rw [ascending_iff_pairwise, List.pairwise_map]

/-- A table is not sorted exactly if some row is behind one with a larger size. -/
theorem isSorted_eq_false_iff : t.isSorted = false ↔ t.Disordered := by
  rw [← Bool.not_eq_true, isSorted_iff_pairwise, List.pairwise_iff_getElem]
  constructor
  · intro unsorted
    push Not at unsorted
    obtain ⟨i, j, hi, hj, before, smaller⟩ := unsorted
    exact ⟨i, j, t.rows[i], t.rows[j], before, List.getElem?_eq_getElem hi,
      List.getElem?_eq_getElem hj, UInt64.not_le.1 smaller⟩
  · rintro ⟨i, j, a, b, before, first, second, smaller⟩ sorted
    obtain ⟨hi, rfl⟩ := List.getElem?_eq_some_iff.1 first
    obtain ⟨hj, rfl⟩ := List.getElem?_eq_some_iff.1 second
    exact UInt64.not_le.2 smaller (sorted i j hi hj before)

/-- A row that is no smaller is no further to the left. -/
theorem sizeCoordinate_mono {a b : LatencyRow} (h : a.size ≤ b.size) :
    Binary64.le (sizeCoordinate a) (sizeCoordinate b) = true := by
  obtain ⟨v, w, first, second, quanta⟩ := Binary64.ofWord_mono h
  unfold sizeCoordinate
  rw [first, second]
  refine Binary64.le_iff.2 ⟨_, _, Binary64.value?_finite false v, Binary64.value?_finite false w, ?_⟩
  rw [Binary64.signedQuanta_false, Binary64.signedQuanta_false]
  exact_mod_cast quanta

/-- Points over the sizes of rows in order run from left to right, whatever latency they are for. -/
theorem pairwise_points (sorted : t.isSorted = true) (latency : LatencyRow → Binary64) :
    (t.rows.map fun r => (⟨sizeCoordinate r, latency r⟩ : Point)).Pairwise fun p q =>
      Binary64.le p.x q.x = true := by
  rw [List.pairwise_map]
  refine (isSorted_iff_pairwise.1 sorted).imp ?_
  intro a b h
  dsimp only
  exact sizeCoordinate_mono h

/-- The curves of rows in order run from left to right, also without the points that are left out. -/
theorem leftToRight_of_mem_curvesOf (sorted : t.isSorted = true) {x y : AxisScale} {curve : Curve}
    (member : curve ∈ Chart.curvesOf t x y) : curve.LeftToRight := by
  simp only [Chart.curvesOf, List.mem_cons, List.not_mem_nil, or_false] at member
  rcases member with rfl | rfl
  · exact (pairwise_points sorted LatencyRow.random).filter _
  · exact (pairwise_points sorted LatencyRow.sequential).filter _

/-- The reader warns about a table exactly if a row in it is smaller than one before it, and keeps the
rows in the order of their lines in any case. Both curves of any chart of a table whose rows are in
order run from left to right. -/
theorem rows_in_order :
    (∀ s t, (read s).result = .ok t →
      (⟨.warn, unsortedWarning⟩ ∈ (read s).log ↔ t.Disordered) ∧
        List.Forall₂ (fun line row => Holds (fieldsOf line) row) (dataLines s) t.rows) ∧
    ∀ t : LatencyTable, t.isSorted = true →
      ∀ m x y c, (Chart.ofTable t m x y).result = .ok c →
        ∃ random sequential, c.curves = [random, sequential] ∧ random.LeftToRight ∧
          sequential.LeftToRight := by
  constructor
  · intro s t read
    rw [result_read] at read
    refine ⟨?_, (ofChars_eq_ok_iff.1 read).2⟩
    rw [unsortedWarning_mem_log_iff read, isSorted_eq_false_iff]
  · intro t sorted m x y c made
    obtain ⟨curves, -⟩ := Chart.ofTable_eq_ok made
    have ascends : ∀ curve ∈ Chart.curvesOf t x y, curve.LeftToRight := fun _ member =>
      leftToRight_of_mem_curvesOf sorted member
    exact ⟨_, _, curves, ascends _ List.mem_cons_self,
      ascends _ (List.mem_cons_of_mem _ List.mem_cons_self)⟩

/-- Two sizes that one number is nearest to. -/
def twinRows : LatencyTable :=
  ⟨[⟨UInt64.ofNat (2 ^ 53), .ofNat 1, .ofNat 1⟩, ⟨UInt64.ofNat (2 ^ 53 + 1), .ofNat 2, .ofNat 1⟩]⟩

/-- Three rows with the smallest in the middle: the last one is behind a larger one, not directly. -/
def dippingRows : LatencyTable :=
  ⟨[⟨300, .ofNat 1, .ofNat 1⟩, ⟨100, .ofNat 1, .ofNat 1⟩, ⟨200, .ofNat 1, .ofNat 1⟩]⟩

/-- Rows that are out of order are warned about, and sizes that become one number are no step back. -/
theorem rows_in_order_twins :
    (read "300,1,1\n100,1,1\n200,1,1\n".toList).result = .ok dippingRows ∧
      ⟨.warn, unsortedWarning⟩ ∈ (read "300,1,1\n100,1,1\n200,1,1\n".toList).log ∧
      ∃ c random sequential,
        (Chart.ofTable twinRows (Landmarks.ofSizes {}) .log .linear).result = .ok c ∧
          c.curves = [random, sequential] ∧ random.LeftToRight ∧
          random.points.map Point.x = [.ofNat (2 ^ 53), .ofNat (2 ^ 53)] := by
  obtain ⟨reading, drawing⟩ := rows_in_order
  have read : (read "300,1,1\n100,1,1\n200,1,1\n".toList).result = .ok dippingRows := by
    decide +kernel
  have disordered : dippingRows.Disordered :=
    ⟨0, 2, _, _, by decide, rfl, rfl, by decide⟩
  have sorted : twinRows.isSorted = true := by decide
  have first : (⟨.ofWord (UInt64.ofNat (2 ^ 53)), .ofNat 1⟩ : Point) ∈ twinRows.randomPoints := by
    simp only [randomPoints, twinRows, sizeCoordinate, List.map_cons, List.mem_cons, true_or]
  have shown : Chart.showsPoint .log .linear ⟨.ofWord (UInt64.ofNat (2 ^ 53)), .ofNat 1⟩ = true := by
    decide +kernel
  obtain ⟨c, made⟩ := Chart.result_ofTable_of_point (m := Landmarks.ofSizes {})
    (List.mem_append_left _ first) shown
  obtain ⟨random, sequential, curves, ascends, -⟩ := drawing _ sorted _ _ _ c made
  refine ⟨read, (reading _ _ read).1.2 disordered, c, random, sequential, made, curves, ascends, ?_⟩
  rw [(Chart.ofTable_eq_ok made).1] at curves
  obtain rfl := (List.cons_eq_cons.1 curves).1
  decide +kernel

end LatencyTable

end AccessLatency
