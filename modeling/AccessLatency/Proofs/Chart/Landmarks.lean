import AccessLatency.Chart.Basic
import AccessLatency.Proofs.Binary64.Within
import Mathlib.Tactic

/-!
# Landmarks of a machine with positive sizes

Every landmark of a machine whose sizes are positive is a positive finite number: the capacities are
words, and the eviction size is a product of three numbers that are too near to one for it to leave
the finite numbers or to vanish. So an axis of either scale shows all of them.
-/

set_option autoImplicit false

namespace AccessLatency

/-- A machine none of whose sizes is zero. -/
structure MachineSizes.IsPositive (sizes : MachineSizes) : Prop where
  l1 : sizes.l1 ≠ 0
  l2 : sizes.l2 ≠ 0
  l3 : sizes.l3 ≠ 0
  word : sizes.word ≠ 0
  page : sizes.page ≠ 0

namespace Landmarks

/-- The line of a cache stands at its capacity. -/
@[simp] theorem cacheLine_x (name : String) (capacity : UInt64) (colour : LineColour) :
    (cacheLine name capacity colour).x = Binary64.ofWord capacity := by
  simp only [cacheLine]

/-- The landmarks of a machine are its three caches and the eviction size, in this order. -/
theorem lines_ofSizes (sizes : MachineSizes) :
    (ofSizes sizes).lines =
      [cacheLine "L1" sizes.l1 .red, cacheLine "L2" sizes.l2 .green,
       cacheLine "L3" sizes.l3 .brown,
       { label := "PT Evic. Thres.", x := evictionSize sizes, colour := .purple }] := by
  simp only [lines, ofSizes]

/-- One half is `2 ^ 1073` quanta. -/
theorem within_half : Binary64.Within 1073 1073 half := by
  have quotient : half = Binary64.ofQuotient false (5 * Binary64.unit) 10 := by
    have ten : 10 ^ (-(-1 : Int)).toNat = 10 := by decide
    unfold half Decimal.toBinary64 Decimal.round
    rw [if_neg (by decide), if_neg (by decide), if_neg (by decide), ten]
  obtain ⟨e, he, one⟩ := Binary64.unit_eq_two_pow
  have double : Binary64.unit = 2 ^ (e - 1) * 2 := by
    have next : e - 1 + 1 = e := by omega
    rw [one, ← Nat.pow_succ, Nat.succ_eq_add_one, next]
  have half : Binary64.Within (e - 1) (e - 1) (Binary64.ofQuotient false (5 * Binary64.unit) 10) :=
    Binary64.within_ofQuotient (by omega) (by omega) (by omega) (by omega)
  have shown : e - 1 = 1073 := by omega
  rwa [shown, ← quotient] at half

/-- The eviction size of a machine with positive sizes is far from both ends of the finite
numbers. -/
theorem within_evictionSize {sizes : MachineSizes} (h : sizes.IsPositive) :
    Binary64.Within 1009 1201 (evictionSize sizes) := by
  -- Bounds are exponents of two in quanta, of which one holds `2 ^ 1074`.
  have half : Binary64.Within 1073 1137 (Binary64.mul (Binary64.ofWord sizes.l3) half) :=
    (Binary64.within_ofWord h.l3).mul within_half (by omega) (by omega) (by omega)
  have entries : Binary64.Within 1010 1138
      (Binary64.div (Binary64.ofWord sizes.page) (Binary64.ofWord sizes.word)) :=
    (Binary64.within_ofWord h.page).div (Binary64.within_ofWord h.word) (by omega) (by omega)
      (by omega)
  exact half.mul entries (by omega) (by omega) (by omega)

/-- The landmarks of a machine with positive sizes are positive finite numbers, none of them close
to the end of the finite numbers or to zero. -/
theorem within_of_mem_lines {sizes : MachineSizes} (h : sizes.IsPositive) {line : Landmark}
    (member : line ∈ (ofSizes sizes).lines) : Binary64.Within 1009 1201 line.x := by
  simp only [lines_ofSizes, List.mem_cons, List.not_mem_nil, or_false] at member
  rcases member with rfl | rfl | rfl | rfl
  · rw [cacheLine_x]
    exact (Binary64.within_ofWord h.l1).mono (by omega) (by omega)
  · rw [cacheLine_x]
    exact (Binary64.within_ofWord h.l2).mono (by omega) (by omega)
  · rw [cacheLine_x]
    exact (Binary64.within_ofWord h.l3).mono (by omega) (by omega)
  · dsimp only
    exact within_evictionSize h

end Landmarks

namespace Chart

/-- An axis of either scale shows all landmarks of a machine with positive sizes. -/
theorem shownLandmarks_ofSizes {sizes : MachineSizes} (h : sizes.IsPositive) (x : AxisScale) :
    shownLandmarks (Landmarks.ofSizes sizes) x = (Landmarks.ofSizes sizes).lines := by
  unfold shownLandmarks
  rw [List.filter_eq_self]
  intro line member
  cases x with
  | log => exact (Landmarks.within_of_mem_lines h member).zero_lt
  | linear => rfl

end Chart

end AccessLatency
