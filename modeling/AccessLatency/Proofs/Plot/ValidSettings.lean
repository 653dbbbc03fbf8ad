import AccessLatency.Chart.Landmark
import AccessLatency.Plot.Settings
import AccessLatency.Proofs.Chart.Drawable
import AccessLatency.Proofs.Chart.Finite
import AccessLatency.Proofs.Chart.Landmarks
import Mathlib.Tactic

/-!
# Landmarks of valid settings

Validation refuses sizes that are zero, and that is enough for every landmark to be a positive
finite number, up to the largest sizes that words hold: the eviction size comes from a quotient and
two products, and no rounding leads it to zero or out of the finite numbers. So a chart of valid
settings has all four landmarks, `landmarks_of_validate`.
-/

set_option autoImplicit false

namespace AccessLatency

/-- A number between two powers of two is finite and positive. -/
theorem Binary64.Within.isPositive {lo hi : Nat} {v : Binary64} (h : Within lo hi v) :
    v.IsPositive :=
  zero_lt_iff.1 h.zero_lt

namespace PlotSettings

/-- All sizes are positive if none of those that are named in faults is zero. -/
theorem isPositive_iff {sizes : MachineSizes} :
    sizes.IsPositive ↔ ∀ size ∈ namedSizes sizes, size.2 ≠ 0 := by
  simp only [namedSizes, List.forall_mem_cons]
  constructor
  · rintro ⟨l1, l2, l3, word, page⟩
    exact ⟨l1, l2, l3, word, page, by simp⟩
  · rintro ⟨l1, l2, l3, word, page, -⟩
    exact ⟨l1, l2, l3, word, page⟩

/-- Settings that are valid have no size that is zero. -/
theorem isPositive_of_validate {s : PlotSettings} (valid : s.validate = .ok ()) :
    s.sizes.IsPositive := by
  unfold validate at valid
  split at valid
  · cases valid
  · rename_i none
    refine isPositive_iff.2 ?_
    intro size member
    have other := List.find?_eq_none.1 none size member
    simpa using other

/-- The landmarks of valid settings are positive finite numbers, and any chart of these settings, on
axes of whatever scales, shows all four of them: the caches from the first to the last, then the
eviction size. -/
theorem landmarks_of_validate {s : PlotSettings} (valid : s.validate = .ok ()) :
    (∀ line ∈ (Landmarks.ofSizes s.sizes).lines, line.x.isFinite = true ∧ line.x.IsPositive) ∧
      ∀ t x y c, (Chart.ofTable t (Landmarks.ofSizes s.sizes) x y).result = .ok c →
        c.landmarks =
          [Landmarks.cacheLine "L1" s.sizes.l1 .red, Landmarks.cacheLine "L2" s.sizes.l2 .green,
           Landmarks.cacheLine "L3" s.sizes.l3 .brown,
           { label := "PT Evic. Thres."
             x := Landmarks.evictionSize s.sizes
             colour := .purple }] := by
  have positive := isPositive_of_validate valid
  constructor
  · intro line member
    have within := Landmarks.within_of_mem_lines positive member
    exact ⟨within.atMost.isFinite, within.isPositive⟩
  · intro t x y c made
    obtain ⟨-, landmarks, -⟩ := Chart.ofTable_eq_ok made
    rw [landmarks, Chart.shownLandmarks_ofSizes positive, Landmarks.lines_ofSizes]

/-- Settings with the smallest eviction size there is: one byte of cache, and one byte of page for
the largest of words. -/
def leastEviction : PlotSettings :=
  { sizes := { l1 := 1, l2 := 1, l3 := 1, word := UInt64.ofNat (2 ^ 64 - 1), page := 1 } }

/-- The least eviction size is not lost to zero, and a chart with a logarithmic axis of sizes shows
it beside the caches. -/
theorem landmarks_of_leastEviction :
    leastEviction.validate = .ok () ∧
      (Landmarks.evictionSize leastEviction.sizes).IsPositive ∧
      ∃ c, (Chart.ofTable ⟨[⟨100, .zero false, .zero false⟩]⟩
          (Landmarks.ofSizes leastEviction.sizes) .log .linear).result = .ok c ∧
        c.landmarks.length = 4 := by
  have valid : leastEviction.validate = .ok () := by decide +kernel
  obtain ⟨lines, charts⟩ := landmarks_of_validate valid
  rw [Landmarks.lines_ofSizes] at lines
  simp only [List.forall_mem_cons] at lines
  obtain ⟨-, -, -, eviction, -⟩ := lines
  have shown : Chart.showsPoint .log .linear ⟨.ofWord 100, .zero false⟩ = true := by
    decide +kernel
  obtain ⟨c, made, -⟩ := Chart.exists_chart_of_point (m := Landmarks.ofSizes leastEviction.sizes)
    (t := ⟨[⟨100, .zero false, .zero false⟩]⟩) (List.mem_append_left _ List.mem_cons_self) shown
  have landmarks := charts _ _ _ c made
  exact ⟨valid, eviction.2, c, made, by rw [landmarks]; rfl⟩

end PlotSettings

end AccessLatency
