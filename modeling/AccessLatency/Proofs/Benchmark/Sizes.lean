import AccessLatency.Benchmark.Plan
import Mathlib.Tactic

/-!
# The sizes of a plan

The sizes of any plan are strictly ascending, start at one hundred and stay below the limit. Both
follow from `lt_successor` by induction on the sizes from a given one on.
-/

set_option autoImplicit false

namespace AccessLatency

namespace BenchmarkPlan

variable {p : BenchmarkPlan} {size : UInt64}

/-- A size below the limit is taken, and its successor comes next. -/
theorem sizesFrom_of_lt (h : size < p.limit) :
    p.sizesFrom size = size :: p.sizesFrom (successor p.factor size) := by
  rw [sizesFrom, dif_pos h]

/-- At the limit there are no sizes any more. -/
theorem sizesFrom_of_not_lt (h : ¬ size < p.limit) : p.sizesFrom size = [] := by
  rw [sizesFrom, dif_neg h]

/-- Sizes from a given one on lie between it and the limit. -/
theorem bounds_of_mem_sizesFrom {s : UInt64} (member : s ∈ p.sizesFrom size) :
    size ≤ s ∧ s < p.limit := by
  induction size using sizesFrom.induct p with
  | case1 size h _ ih =>
    rw [sizesFrom_of_lt h] at member
    rcases List.mem_cons.1 member with rfl | later
    · exact ⟨UInt64.le_refl s, h⟩
    · obtain ⟨above, below⟩ := ih later
      exact ⟨UInt64.le_of_lt (UInt64.lt_of_lt_of_le (lt_successor p.factor h) above), below⟩
  | case2 size h =>
    rw [sizesFrom_of_not_lt h] at member
    cases member

/-- The sizes from a size on increase. -/
theorem pairwise_sizesFrom (p : BenchmarkPlan) (size : UInt64) :
    (p.sizesFrom size).Pairwise (· < ·) := by
  induction size using sizesFrom.induct p with
  | case1 size h _ ih =>
    rw [sizesFrom_of_lt h, List.pairwise_cons]
    refine ⟨?_, ih⟩
    intro s later
    exact UInt64.lt_of_lt_of_le (lt_successor p.factor h) (bounds_of_mem_sizesFrom later).1
  | case2 size h =>
    rw [sizesFrom_of_not_lt h]
    exact List.Pairwise.nil

/-- The sizes of a plan increase. -/
theorem pairwise_sizes (p : BenchmarkPlan) : p.sizes.Pairwise (· < ·) :=
  pairwise_sizesFrom p firstSize

/-- No size of a plan is below the first one. -/
theorem firstSize_le {s : UInt64} (member : s ∈ p.sizes) : firstSize ≤ s :=
  (bounds_of_mem_sizesFrom member).1

end BenchmarkPlan

end AccessLatency
