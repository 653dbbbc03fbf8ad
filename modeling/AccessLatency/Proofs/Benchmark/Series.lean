import AccessLatency.Proofs.Benchmark.Sizes
import AccessLatency.Word
import Mathlib.Tactic

/-!
# The sizes of a plan as a series

A sweep visits one size after the other until one is not below the limit. What makes it end is not
the factor, which rounding can annul and which need not even be a number, but the one byte by which
every size grows at least; and that byte is never one too many for a word, since it is added to
sizes below the limit only. So the sizes of a plan are the terms of a series with checked additions,
`sweeps_sizesFrom`, and none below the limit is left out, `sizesFrom_getElem?_iff`. All of it holds
of every limit and factor: `sizes_are_series`.
-/

set_option autoImplicit false

namespace AccessLatency

namespace BenchmarkPlan

/-- The size after a size, if the sum that it is no less than is a word. -/
def next? (factor : Binary64) (size : UInt64) : Except Word.Overflow UInt64 := do
  let least ← Word.add size 1
  return max (Binary64.mul (Binary64.ofWord size) factor).ceilWord least

/-- The terms of the series of sizes from a given one on, until an addition overflows. -/
def term (factor : Binary64) (size : UInt64) : Nat → Except Word.Overflow UInt64
  | 0 => .ok size
  | k + 1 => do
    let next ← next? factor size
    term factor next k

/-- A sweep from a size on, none of whose additions overflows: the sizes that it visits, and the one
at which it ends. -/
inductive Sweeps (p : BenchmarkPlan) : UInt64 → List UInt64 → UInt64 → Prop where
  | done {size : UInt64} (reached : p.limit ≤ size) : Sweeps p size [] size
  | visit {size next last : UInt64} {sizes : List UInt64} (below : size < p.limit)
      (grows : next? p.factor size = .ok next) (rest : Sweeps p next sizes last) :
      Sweeps p size (size :: sizes) last

variable {p : BenchmarkPlan} {factor : Binary64} {size limit : UInt64}

/-! ## One step -/

/-- Below a limit there is a size after a size, and it is the one that a sweep goes on with. -/
theorem next?_of_lt (factor : Binary64) (h : size < limit) :
    next? factor size = .ok (successor factor size) := by
  have one : (1 : UInt64).toNat = 1 := rfl
  have sum : (size + 1).toNat = size.toNat + 1 := by
    have top := UInt64.toNat_lt limit
    rw [UInt64.lt_iff_toNat_lt] at h
    rw [UInt64.toNat_add, one, Nat.mod_eq_of_lt (by omega)]
  have least : Word.add size 1 = .ok (size + 1) := Word.add_eq_ok.2 (by rw [sum, one])
  have larger : max (Binary64.mul (Binary64.ofWord size) factor).ceilWord (size + 1) =
      successor factor size := by
    unfold successor
    dsimp only
    generalize (Binary64.mul (Binary64.ofWord size) factor).ceilWord = grown
    show (if grown ≤ size + 1 then size + 1 else grown) = if grown ≤ size then size + 1 else grown
    simp only [UInt64.le_iff_toNat_le, sum]
    split <;> split
    · rfl
    · rw [← UInt64.toNat_inj]
      omega
    · omega
    · rfl
  unfold next?
  rw [least, ← larger]
  rfl

/-- The next size is larger, whatever the factor. -/
theorem lt_of_next? {next : UInt64} (h : next? factor size = .ok next) : size < next := by
  unfold next? at h
  cases sum : Word.add size 1 with
  | error overflow =>
    rw [sum] at h
    cases h
  | ok least =>
    rw [sum] at h
    obtain rfl := Except.ok.inj h
    have one : (1 : UInt64).toNat = 1 := rfl
    have grown := Word.add_eq_ok.1 sum
    rw [one] at grown
    generalize (Binary64.mul (Binary64.ofWord size) factor).ceilWord = other
    show size < if other ≤ least then least else other
    simp only [UInt64.le_iff_toNat_le, UInt64.lt_iff_toNat_lt]
    split <;> omega

/-! ## A sweep -/

/-- No later size is below the first one. -/
theorem le_of_term {k : Nat} {s : UInt64} (h : term factor size k = .ok s) : size ≤ s := by
  induction k generalizing size with
  | zero =>
    obtain rfl := Except.ok.inj h
    exact UInt64.le_refl _
  | succ k ih =>
    rw [term] at h
    cases step : next? factor size with
    | error overflow =>
      rw [step] at h
      cases h
    | ok next =>
      rw [step] at h
      exact UInt64.le_trans (UInt64.le_of_lt (lt_of_next? step)) (ih h)

/-- The sizes from a given one on are those of a sweep, so the sweep ends and nothing overflows. -/
theorem sweeps_sizesFrom (p : BenchmarkPlan) (size : UInt64) :
    ∃ last, p.Sweeps size (p.sizesFrom size) last := by
  induction size using sizesFrom.induct p with
  | case1 size h _ ih =>
    obtain ⟨last, rest⟩ := ih
    rw [sizesFrom_of_lt h]
    exact ⟨last, .visit h (next?_of_lt p.factor h) rest⟩
  | case2 size h =>
    rw [sizesFrom_of_not_lt h]
    exact ⟨size, .done (UInt64.not_lt.1 h)⟩

/-- A sweep ends at the first size that is not below the limit, the one after the last it visits. -/
theorem Sweeps.ends {last : UInt64} {sizes : List UInt64} (h : p.Sweeps size sizes last) :
    p.limit ≤ last ∧ ∀ s, sizes.getLast? = some s → next? p.factor s = .ok last := by
  induction h with
  | done reached => exact ⟨reached, fun s none => nomatch none⟩
  | @visit size next last sizes below grows rest ih =>
    refine ⟨ih.1, ?_⟩
    intro s found
    cases rest with
    | done reached =>
      obtain rfl := Option.some.inj found
      exact grows
    | visit below' grows' rest' =>
      rw [List.getLast?_cons_cons] at found
      exact ih.2 s found

/-- The sizes from a given one on are the terms of the series below the limit. -/
theorem sizesFrom_getElem?_iff (p : BenchmarkPlan) (size : UInt64) (k : Nat) (s : UInt64) :
    (p.sizesFrom size)[k]? = some s ↔ term p.factor size k = .ok s ∧ s < p.limit := by
  induction size using sizesFrom.induct p generalizing k with
  | case1 size h _ ih =>
    rw [sizesFrom_of_lt h]
    cases k with
    | zero =>
      rw [List.getElem?_cons_zero, term]
      constructor
      · rintro ⟨⟩
        exact ⟨rfl, h⟩
      · rintro ⟨⟨⟩, -⟩
        rfl
    | succ k =>
      rw [List.getElem?_cons_succ, term, next?_of_lt p.factor h]
      exact ih k
  | case2 size h =>
    rw [sizesFrom_of_not_lt h]
    constructor
    · intro none
      cases none
    · rintro ⟨found, below⟩
      exact absurd (UInt64.lt_of_le_of_lt (le_of_term found) below) h

/-- Sizes grow by one at least, so there are no more of them than numbers up to the limit. -/
theorem length_sizesFrom_le (p : BenchmarkPlan) (size : UInt64) :
    (p.sizesFrom size).length ≤ p.limit.toNat - size.toNat := by
  induction size using sizesFrom.induct p with
  | case1 size h _ ih =>
    have shrinks := remaining_lt p.factor h
    rw [sizesFrom_of_lt h, List.length_cons]
    omega
  | case2 size h =>
    rw [sizesFrom_of_not_lt h]
    exact Nat.zero_le _

/-- Whatever the limit and the factor are, a sweep ends after no more steps than there are bytes
from one hundred up to the limit, and no addition in it overflows. It visits one hundred first, if
that is below the limit, and nothing otherwise; the sizes that it visits ascend strictly from one
hundred, below the limit, and are followed by one that is not below the limit. They are the terms of
the series that are below the limit, with none left out. -/
theorem sizes_are_series (p : BenchmarkPlan) :
    (∃ last, p.Sweeps firstSize p.sizes last ∧ p.limit ≤ last ∧
        ∀ s, p.sizes.getLast? = some s → next? p.factor s = .ok last) ∧
      p.sizes.length ≤ p.limit.toNat - 100 ∧
      (p.sizes.head? = some 100 ↔ 100 < p.limit) ∧ (p.limit ≤ 100 → p.sizes = []) ∧
      p.sizes.Pairwise (· < ·) ∧ (∀ s ∈ p.sizes, 100 ≤ s ∧ s < p.limit) ∧
      ∀ k s, p.sizes[k]? = some s ↔ term p.factor 100 k = .ok s ∧ s < p.limit := by
  obtain ⟨last, sweep⟩ := sweeps_sizesFrom p firstSize
  have terms := sizesFrom_getElem?_iff p firstSize
  refine ⟨⟨last, sweep, sweep.ends⟩, length_sizesFrom_le p firstSize, ?_, ?_, pairwise_sizes p, ?_,
    terms⟩
  · rw [List.head?_eq_getElem?]
    unfold sizes
    rw [terms, term]
    simp [firstSize]
  · intro reached
    exact sizesFrom_of_not_lt (UInt64.not_lt.2 reached)
  · intro s member
    exact bounds_of_mem_sizesFrom member

end BenchmarkPlan

end AccessLatency
