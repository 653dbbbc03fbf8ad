import AccessLatency.Proofs.Benchmark.TwoPlans
import AccessLatency.Proofs.Binary64.Exact
import Mathlib.Tactic

/-!
# Whole factors

With a whole factor the sizes of a plan are a geometric series, as long as its limit is one of the
whole numbers that are numbers. A step from a size below the limit leads to the exact product, or it
leads to `2 ^ 53` or beyond, and so does the exact product then: `successor_whole`. In the latter case
the product is rounded, but the sweep is at its end. So the sizes from a given one on are its products
with the powers of the factor that are below the limit, none of them left out, `sizesFrom_whole_iff`.
-/

set_option autoImplicit false

namespace AccessLatency

namespace BenchmarkPlan

variable {p : BenchmarkPlan} {k : Nat} {size limit : UInt64}

/-- One step with a whole factor: to the exact product, unless that and the next size are both at or
beyond the last of the whole numbers that are all numbers. -/
theorem successor_whole (least : 2 ≤ k) (most : k ≤ 2 ^ 53) (filled : 0 < size.toNat)
    (below : size < limit) (bound : limit.toNat ≤ 2 ^ 53) :
    (successor (Binary64.ofNat k) size).toNat = size.toNat * k ∨
      (2 ^ 53 ≤ (successor (Binary64.ofNat k) size).toNat ∧ 2 ^ 53 ≤ size.toNat * k) := by
  have small : size.toNat ≤ 2 ^ 53 := (UInt64.lt_iff_toNat_lt.1 below).le.trans bound
  have grows : size.toNat + 1 ≤ size.toNat * k := by
    have double := Nat.mul_le_mul_left size.toNat least
    omega
  have next := toNat_successor (Binary64.ofNat k) below
  rw [Binary64.ofWord, Binary64.mul_ofNat small most, Binary64.toNat_ceilWord_ofNat] at next
  rw [next]
  have top : (2 : Nat) ^ 53 ≤ Binary64.wordMax := by decide
  rcases Nat.le_total (size.toNat * k) (2 ^ 53) with exact | beyond
  · left
    rw [Binary64.nearestWhole_of_le exact, Nat.min_eq_left (exact.trans top),
      Nat.max_eq_left grows]
  · right
    have rounded : 2 ^ 53 ≤ Binary64.nearestWhole (size.toNat * k) :=
      Binary64.le_nearestWhole (Binary64.fits_two_pow 53) beyond
    exact ⟨(Nat.le_min.2 ⟨rounded, top⟩).trans (Nat.le_max_left _ _), beyond⟩

/-- The sizes from a given one on are its products with the powers of a whole factor, as far as they
are below the limit. -/
theorem sizesFrom_whole_iff (least : 2 ≤ k) (most : k ≤ 2 ^ 53)
    (factor : p.factor = Binary64.ofNat k) (bound : p.limit.toNat ≤ 2 ^ 53)
    (filled : 0 < size.toNat) (j : Nat) (s : UInt64) :
    (p.sizesFrom size)[j]? = some s ↔
      s.toNat = size.toNat * k ^ j ∧ size.toNat * k ^ j < p.limit.toNat := by
  -- Below the limit the next size is either the exact product or not below the limit any more.
  induction size using sizesFrom.induct p generalizing j with
  | case1 size h _ ih =>
    rw [sizesFrom_of_lt h]
    cases j with
    | zero =>
      rw [List.getElem?_cons_zero, Option.some.injEq, Nat.pow_zero, Nat.mul_one, ← UInt64.toNat_inj,
        and_iff_left (UInt64.lt_iff_toNat_lt.1 h)]
      exact eq_comm
    | succ j =>
      have power : size.toNat * k ^ (j + 1) = size.toNat * k * k ^ j := by
        rw [Nat.pow_succ, Nat.mul_comm (k ^ j) k, Nat.mul_assoc]
      rw [List.getElem?_cons_succ, power]
      rw [factor] at ih ⊢
      rcases successor_whole least most filled h bound with exact | ⟨reached, beyond⟩
      · rw [← exact]
        exact ih (exact ▸ Nat.mul_pos filled (by omega)) j
      · have ended : ¬ successor (Binary64.ofNat k) size < p.limit := by
          rw [UInt64.lt_iff_toNat_lt]
          omega
        have large : 2 ^ 53 ≤ size.toNat * k * k ^ j :=
          beyond.trans (Nat.le_mul_of_pos_right _ (Nat.pow_pos (by omega)))
        rw [sizesFrom_of_not_lt ended]
        constructor
        · intro none
          cases none
        · rintro ⟨-, less⟩
          omega
  | case2 size h =>
    rw [sizesFrom_of_not_lt h]
    have large : size.toNat ≤ size.toNat * k ^ j :=
      Nat.le_mul_of_pos_right _ (Nat.pow_pos (by omega))
    rw [UInt64.lt_iff_toNat_lt] at h
    constructor
    · intro none
      cases none
    · rintro ⟨-, less⟩
      omega

/-- With a whole factor `k` and a limit of at most `2 ^ 53` the sizes of a plan are one hundred times
the powers of `k`, in order, exactly those that are below the limit. -/
theorem sizes_of_whole_factor (least : 2 ≤ k) (most : k < 2 ^ 53)
    (factor : p.factor = Binary64.ofNat k) (bound : p.limit.toNat ≤ 2 ^ 53) :
    (∀ (j : Nat) (s : UInt64), p.sizes[j]? = some s ↔
        s.toNat = 100 * k ^ j ∧ 100 * k ^ j < p.limit.toNat) ∧
      ∀ j, j < p.sizes.length ↔ 100 * k ^ j < p.limit.toNat := by
  have filled : 0 < firstSize.toNat := by decide
  have terms := sizesFrom_whole_iff least most.le factor bound filled
  refine ⟨terms, ?_⟩
  intro j
  constructor
  · intro inside
    exact ((terms j _).1 (List.getElem?_eq_getElem inside)).2
  · intro below
    have word : (UInt64.ofNat (100 * k ^ j)).toNat = 100 * k ^ j :=
      UInt64.toNat_ofNat_of_lt (below.trans (UInt64.toNat_lt p.limit))
    have found := (terms j _).2 ⟨word, below⟩
    exact (List.getElem?_eq_some_iff.1 found).1

/-- The plan with the factor eleven and the largest limit. -/
def elevenfold : BenchmarkPlan :=
  { limit := UInt64.ofNat (2 ^ 53), factor := Binary64.ofNat 11, repeats := 1 }

/-- The fourteenth size is the last: the product after it has more than 53 bits, and is rounded. -/
theorem sizes_elevenfold :
    elevenfold.factor = Binary64.ofNat 11 ∧ elevenfold.limit.toNat ≤ 2 ^ 53 ∧
      elevenfold.sizes[13]? = some (UInt64.ofNat (100 * 11 ^ 13)) ∧ elevenfold.sizes.length = 14 ∧
      Binary64.nearestWhole (100 * 11 ^ 14) ≠ 100 * 11 ^ 14 := by
  have factor : elevenfold.factor = Binary64.ofNat 11 := by
    rw [elevenfold]
  have limit : elevenfold.limit.toNat = 2 ^ 53 := by decide
  obtain ⟨terms, count⟩ := sizes_of_whole_factor (by decide) (by decide) factor limit.le
  refine ⟨factor, limit.le, (terms 13 _).2 ?_, ?_, by decide +kernel⟩
  · rw [limit]
    decide
  · have last := (count 13).2 (by rw [limit]; decide)
    have ended := mt (count 14).1 (by rw [limit]; decide)
    omega

end BenchmarkPlan

end AccessLatency
