import AccessLatency.Proofs.Benchmark.OutputFile
import AccessLatency.Proofs.Benchmark.Series
import AccessLatency.Proofs.Binary64.Monotone
import AccessLatency.Proofs.Json.Decode
import Mathlib.Tactic

/-!
# The sizes of two plans

The limit of a plan decides when its sizes end, and nothing else: a plan with a smaller limit has the
same sizes as far as they are below it, `exists_beyond`. So two runs that are granted the same memory
can be compared row by row, however many more rows one of them has.

The factor decides how far each size is from the next. A step with a larger factor leads from a larger
size to a size that is no smaller, `successor_mono`, through the product that is rounded, the word
that it is rounded up to and the one byte that a size grows at least. So two plans that start at the
same size drift apart in one direction only, and the one with the larger factor is the first at the
limit.
-/

set_option autoImplicit false

namespace AccessLatency

namespace BenchmarkPlan

variable {p q : BenchmarkPlan}

/-! ## A smaller limit -/

/-- A plan with a larger limit goes on with the sizes that are not below the smaller one. -/
theorem exists_beyond (factor : p.factor = q.factor) (limit : p.limit ≤ q.limit) (size : UInt64) :
    ∃ beyond, q.sizesFrom size = p.sizesFrom size ++ beyond ∧ ∀ s ∈ beyond, ¬ s < p.limit := by
  induction size using sizesFrom.induct q with
  | case1 size h _ ih =>
    by_cases below : size < p.limit
    · obtain ⟨beyond, rest, above⟩ := ih
      refine ⟨beyond, ?_, above⟩
      rw [sizesFrom_of_lt h, rest, sizesFrom_of_lt below, factor, List.cons_append]
    · refine ⟨q.sizesFrom size, ?_, ?_⟩
      · rw [sizesFrom_of_not_lt below, List.nil_append]
      intro s member less
      exact below (UInt64.lt_of_le_of_lt (bounds_of_mem_sizesFrom member).1 less)
  | case2 size h =>
    have beyond : ¬ size < p.limit := fun less => h (UInt64.lt_of_lt_of_le less limit)
    refine ⟨[], ?_, by simp⟩
    rw [sizesFrom_of_not_lt h, sizesFrom_of_not_lt beyond, List.append_nil]

/-- What is taken from a shorter list while a test holds is in front of what is taken from a longer
one. -/
theorem prefix_takeWhile {α : Type} {a b : List α} (test : α → Bool) (h : a <+: b) :
    a.takeWhile test <+: b.takeWhile test := by
  obtain ⟨rest, rfl⟩ := h
  rw [List.takeWhile_append]
  split
  · exact (List.takeWhile_prefix test).trans (List.prefix_append a _)
  · exact List.prefix_rfl

/-- The rows of sizes are for these sizes. -/
theorem sizes_rowsOf (hosts : UInt64 → Host) (sizes : List UInt64) :
    (rowsOf hosts sizes).map LatencyRow.size = sizes := by
  unfold rowsOf Host.row
  rw [List.map_map]
  exact List.map_id sizes

/-- Which sizes are granted depends only on what the machines answer to requests. -/
theorem granted_congr {hosts others : UInt64 → Host}
    (same : ∀ size, (hosts size).grants = (others size).grants) (huge : Bool) :
    granted hosts huge = granted others huge := by
  funext size
  unfold granted Host.refusal?
  rw [same size]

/-- A plan with a smaller limit has the first sizes of one with a larger limit, namely those that are
below the smaller one. So the rows of its run are for the same sizes, one by one, as the first rows of
the other run, on any two machines that grant the same memory, also where they do not grant all. -/
theorem sizes_of_smaller_limit (factor : p.factor = q.factor) (limit : p.limit ≤ q.limit) :
    p.sizes <+: q.sizes ∧ p.sizes = q.sizes.filter (fun s => decide (s < p.limit)) ∧
      ∀ hosts others : UInt64 → Host, p.hugePages = q.hugePages →
        (∀ size, (hosts size).grants = (others size).grants) →
          (p.collectOn hosts).1.map LatencyRow.size <+:
            (q.collectOn others).1.map LatencyRow.size := by
  obtain ⟨beyond, sizes, above⟩ := exists_beyond factor limit firstSize
  have leads : p.sizes <+: q.sizes := ⟨beyond, sizes.symm⟩
  refine ⟨leads, ?_, ?_⟩
  · have inside : (p.sizesFrom firstSize).filter (fun s => decide (s < p.limit)) =
        p.sizesFrom firstSize :=
      List.filter_eq_self.2 fun s member => decide_eq_true (bounds_of_mem_sizesFrom member).2
    have outside : beyond.filter (fun s => decide (s < p.limit)) = [] :=
      List.filter_eq_nil_iff.2 fun s member => by simpa using above s member
    unfold BenchmarkPlan.sizes
    rw [sizes, List.filter_append, inside, outside, List.append_nil]
  · intro hosts others huge same
    rw [rows_collectOn, rows_collectOn, sizes_rowsOf, sizes_rowsOf, granted_congr same, huge]
    exact prefix_takeWhile _ leads

/-- A plan of one size, the first of two. -/
def halfDoubling : BenchmarkPlan :=
  { limit := 200, factor := doubling.factor, repeats := 1 }

/-- On a machine that grants the memory of all sizes but the second, both runs have one row. -/
theorem sizes_of_smaller_limit_doubling :
    halfDoubling.limit ≤ doubling.limit ∧ halfDoubling.sizes = [100] ∧
      (halfDoubling.collectOn (grantsOnly 100)).1.map LatencyRow.size <+:
        (doubling.collectOn (grantsOnly 100)).1.map LatencyRow.size := by
  have limit : halfDoubling.limit ≤ doubling.limit := by decide
  have factor : halfDoubling.factor = doubling.factor := by
    rw [halfDoubling]
  obtain ⟨-, sizes, rows⟩ := sizes_of_smaller_limit (p := halfDoubling) (q := doubling) factor limit
  refine ⟨limit, ?_, rows _ _ rfl fun _ => rfl⟩
  rw [sizes, sizes_doubling]
  rfl

/-! ## A larger factor -/

variable {factor : Binary64} {f g : Magnitude} {limit size other : UInt64}

/-- Below a limit, the size after a size is the larger of two. -/
theorem toNat_successor (factor : Binary64) (h : size < limit) :
    (successor factor size).toNat =
      max (Binary64.mul (Binary64.ofWord size) factor).ceilWord.toNat (size.toNat + 1) := by
  obtain ⟨least, sum, larger⟩ := bind_eq_ok_iff.1 (next?_of_lt factor h)
  have next : least.toNat = size.toNat + 1 := Word.add_eq_ok.1 sum
  rw [← Except.ok.inj larger, UInt64.max_def]
  split
  · rename_i less
    rw [UInt64.le_iff_toNat_le] at less
    omega
  · rename_i more
    rw [UInt64.le_iff_toNat_le] at more
    omega

/-- A larger factor leads from a larger size to one that is no smaller. -/
theorem successor_mono (factors : f.quanta ≤ g.quanta) (sizes : size ≤ other)
    (below : other < limit) :
    successor (.finite false f) size ≤ successor (.finite false g) other := by
  obtain ⟨a, b, first, second, values⟩ := Binary64.ofWord_mono sizes
  have grown := Binary64.ceilWord_mono (Binary64.mul_mono values factors)
  rw [← first, ← second] at grown
  rw [UInt64.le_iff_toNat_le] at grown sizes ⊢
  rw [toNat_successor _ (UInt64.lt_of_le_of_lt (UInt64.le_iff_toNat_le.2 sizes) below),
    toNat_successor _ below]
  exact max_le_max grown (Nat.succ_le_succ sizes)

/-- The sizes of a plan from a size on, with the sizes from a larger one on of a plan with the same
limit and a larger factor: each of the latter has one of the former beside it that is no larger. -/
theorem exists_beside (limit : p.limit = q.limit) (slow : p.factor = .finite false f)
    (fast : q.factor = .finite false g) (factors : f.quanta ≤ g.quanta) (sizes : size ≤ other) :
    ∃ beside rest, p.sizesFrom size = beside ++ rest ∧
      List.Forall₂ (· ≤ ·) beside (q.sizesFrom other) := by
  induction other using sizesFrom.induct q generalizing size with
  | case1 other h _ ih =>
    have below : size < p.limit := by
      rw [limit]
      exact UInt64.lt_of_le_of_lt sizes h
    have next : successor p.factor size ≤ successor q.factor other := by
      rw [slow, fast]
      exact successor_mono factors sizes h
    obtain ⟨beside, rest, split, ordered⟩ := ih next
    refine ⟨size :: beside, rest, ?_, ?_⟩
    · rw [sizesFrom_of_lt below, split, List.cons_append]
    · rw [sizesFrom_of_lt h]
      exact .cons sizes ordered
  | case2 other h =>
    refine ⟨[], p.sizesFrom size, (List.nil_append _).symm, ?_⟩
    rw [sizesFrom_of_not_lt h]
    exact .nil

/-- A plan that is made has a finite factor of more than one. -/
theorem eq_of_make {limit repeats : UInt64} (h : make limit factor repeats = .ok p) :
    p = { limit, factor, repeats } ∧
      ∃ m : Magnitude, factor = .finite false m ∧ Binary64.unit < m.quanta := by
  unfold make at h
  split at h
  · cases h
  split at h
  · cases h
  rename_i large
  split at h
  · cases h
  obtain rfl := Except.ok.inj h
  refine ⟨rfl, ?_⟩
  rw [Bool.or_eq_true, not_or, Bool.not_eq_true', Bool.not_eq_false] at large
  obtain ⟨s, m, rfl⟩ := Binary64.exists_finite large.1
  obtain ⟨one, double, quanta⟩ := Binary64.ofNat_two_pow (k := 0) (by decide)
  rw [Nat.pow_zero, Nat.one_mul] at quanta
  have beyond : (Binary64.unit : Int) < Binary64.signedQuanta s m := by
    by_contra small
    apply large.2
    rw [show Binary64.ofNat 1 = .finite false one from double]
    refine Binary64.le_iff.2 ⟨_, (Binary64.unit : Int), rfl, ?_, not_lt.1 small⟩
    rw [Binary64.value?_finite, ← quanta]
    rfl
  cases s with
  | true =>
    simp only [Binary64.signedQuanta, if_true] at beyond
    omega
  | false => exact ⟨m, rfl, Int.ofNat_lt.1 beyond⟩

/-- Of two plans with one limit, the one with the larger factor has no smaller size in any place, and
no more sizes. -/
theorem sizes_of_larger_factor {limit repeats repeats' : UInt64} {factor factor' : Binary64}
    (slow : make limit factor repeats = .ok p) (fast : make limit factor' repeats' = .ok q)
    (factors : Binary64.le factor factor' = true) :
    (∀ (k : Nat) (s t : UInt64), p.sizes[k]? = some s → q.sizes[k]? = some t → s ≤ t) ∧
      q.sizes.length ≤ p.sizes.length := by
  obtain ⟨rfl, f, rfl, -⟩ := eq_of_make slow
  obtain ⟨rfl, g, rfl, -⟩ := eq_of_make fast
  have quanta : f.quanta ≤ g.quanta := by
    obtain ⟨x, y, hx, hy, less⟩ := Binary64.le_iff.1 factors
    obtain rfl := Option.some.inj hx
    obtain rfl := Option.some.inj hy
    simpa [Binary64.signedQuanta] using less
  obtain ⟨beside, rest, split, ordered⟩ :=
    exists_beside (p := { limit, factor := .finite false f, repeats })
      (q := { limit, factor := .finite false g, repeats := repeats' }) rfl rfl rfl quanta
      (UInt64.le_refl firstSize)
  unfold sizes
  rw [split, List.length_append, ordered.length_eq]
  refine ⟨?_, Nat.le_add_right _ _⟩
  intro k s t first second
  obtain ⟨inside, rfl⟩ := List.getElem?_eq_some_iff.1 second
  have inside' : k < beside.length := ordered.length_eq.symm ▸ inside
  rw [List.getElem?_append_left inside', List.getElem?_eq_getElem inside'] at first
  obtain rfl := Option.some.inj first
  exact ordered.get inside' inside

/-- The number halfway between one and two. -/
def oneAndHalf : Binary64 := Binary64.div (Binary64.ofNat 3) (Binary64.ofNat 2)

/-- The plans up to five hundred bytes with the factors one and a half and two. -/
theorem sizes_of_larger_factor_halves :
    ∃ p q : BenchmarkPlan, make 500 oneAndHalf 1 = .ok p ∧ make 500 (Binary64.ofNat 2) 1 = .ok q ∧
      Binary64.le oneAndHalf (Binary64.ofNat 2) = true ∧
      (∀ s t, p.sizes[2]? = some s → q.sizes[2]? = some t → s ≤ t) ∧
      q.sizes.length ≤ p.sizes.length := by
  have slow : make 500 oneAndHalf 1 = .ok { limit := 500, factor := oneAndHalf, repeats := 1 } := by
    decide +kernel
  have fast : make 500 (Binary64.ofNat 2) 1 =
      .ok { limit := 500, factor := Binary64.ofNat 2, repeats := 1 } := by
    decide +kernel
  have factors : Binary64.le oneAndHalf (Binary64.ofNat 2) = true := by decide +kernel
  obtain ⟨places, lengths⟩ := sizes_of_larger_factor slow fast factors
  exact ⟨_, _, slow, fast, factors, places 2, lengths⟩

end BenchmarkPlan

end AccessLatency
