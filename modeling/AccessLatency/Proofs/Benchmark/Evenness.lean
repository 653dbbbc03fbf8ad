import AccessLatency.Proofs.Benchmark.Lockstep
import Mathlib.Data.Int.CardIntervalMod
import Mathlib.Tactic

/-!
# How often a sequential walk visits an element

The latency of a sequential walk is a mean over the array only if no element is left out and none is
visited much more often than another. A visit adds one to the count of its element and to no other,
`visits_visit`; so after any number of rounds an element has been visited as often as a number below
is congruent to it modulo the size, `visits_loop_of_sequential`. The rounds are at least as many as
the elements, hence no count is zero, and two counts differ by the last, broken pass at most.

No walk with a mask other than zero gets that far: the last element of its first pass is looked for
behind the end of the array. So a sequential walk that is finished is one with a mask of zero, and
`sequential_visits_even` need not ask for it.
-/

set_option autoImplicit false

namespace AccessLatency

namespace Walk

open ShiftRegister

variable {w : Walk}

/-- The number of visits to an element so far. -/
def Trace.visits (t : Trace) (element : Nat) : Nat := t.indices.countP fun i => i.toNat = element

/-! ## One visit -/

/-- A visit is counted for its own element and for no other. -/
theorem visits_visit (w : Walk) (t : Trace) (number element : Nat) :
    (w.visit t number).visits element =
      t.visits element +
        if (w.index (UInt64.ofNat number) t.register).toNat = element then 1 else 0 := by
  unfold Trace.visits visit
  simp only [Array.countP_push, decide_eq_true_eq]

/-- The index of a visit in a sequential walk is its number, brought back into the array. -/
theorem toNat_index_of_sequential (sequential : w.pattern = .sequential)
    (counted : w.array.size < 2 ^ 64) {number : Nat} (word : number < 2 ^ 64) (register : UInt64) :
    (w.index (UInt64.ofNat number) register).toNat = number % w.array.size := by
  unfold index length
  rw [sequential]
  dsimp only
  rw [UInt64.toNat_mod, UInt64.toNat_ofNat_of_lt' word, UInt64.toNat_ofNat_of_lt' counted]

/-! ## A whole loop -/

/-- Every visit is to one element. -/
theorem sum_visits_loop (filled : w.array.size ≠ 0) (count : Nat) :
    ∑ element ∈ Finset.range w.array.size, (w.loop count).visits element = count := by
  induction count with
  | zero => simp [loop, Trace.visits]
  | succ count ih =>
    have inside := index_lt filled (UInt64.ofNat count) (w.loop count).register
    simp only [loop_succ, visits_visit, Finset.sum_add_distrib, ih, Finset.sum_ite_eq,
      Finset.mem_range, if_pos inside]

/-- In a sequential walk an element has been visited as often as there are numbers below the count
that are congruent to it. -/
theorem visits_loop_of_sequential (sequential : w.pattern = .sequential)
    (counted : w.array.size < 2 ^ 64) {element : Nat} (inside : element < w.array.size)
    {count : Nat} (words : count ≤ 2 ^ 64) :
    (w.loop count).visits element = count.count (· ≡ element [MOD w.array.size]) := by
  induction count with
  | zero => simp [loop, Trace.visits]
  | succ count ih =>
    have place := toNat_index_of_sequential sequential counted (Nat.lt_of_succ_le words)
      (w.loop count).register
    have same : count % w.array.size = element ↔ count ≡ element [MOD w.array.size] := by
      unfold Nat.ModEq
      rw [Nat.mod_eq_of_lt inside]
    rw [loop_succ, visits_visit, ih (Nat.le_of_succ_le words), Nat.count_succ, place]
    simp only [same]

/-- Each whole pass visits an element once, and so does the broken one if it gets that far. -/
theorem visits_loop_eq (sequential : w.pattern = .sequential) (counted : w.array.size < 2 ^ 64)
    {element : Nat} (inside : element < w.array.size) {count : Nat} (words : count ≤ 2 ^ 64) :
    (w.loop count).visits element =
      count / w.array.size + if element < count % w.array.size then 1 else 0 := by
  have filled : 0 < w.array.size := Nat.zero_lt_of_lt inside
  rw [visits_loop_of_sequential sequential counted inside words,
    Nat.count_modEq_card count filled, Nat.mod_eq_of_lt inside]

/-! ## Masks -/

/-- A loop that is finished has made each of its visits. -/
theorem exists_of_foldlM_eq_ok {α β ε : Type} {f : β → α → Except ε β} {items : List α}
    {first last : β} (finished : items.foldlM f first = .ok last) {item : α}
    (member : item ∈ items) : ∃ before behind, f before item = .ok behind := by
  induction items generalizing first with
  | nil => cases member
  | cons head rest ih =>
    rw [List.foldlM_cons] at finished
    cases made : f first head with
    | error why =>
      rw [made] at finished
      cases finished
    | ok next =>
      rw [made] at finished
      rcases List.mem_cons.1 member with rfl | later
      · exact ⟨first, next, made⟩
      · exact ih finished later

/-- What the access loop has loaded is in the array. -/
theorem index_add_mask_lt {t next : Trace} {number : Nat}
    (visited : w.accessVisit t number = .ok next) :
    (w.index (UInt64.ofNat number) t.register).toNat + w.mask.toNat < w.array.size := by
  unfold accessVisit at visited
  dsimp only at visited
  cases sum : Word.add (w.index (UInt64.ofNat number) t.register) w.mask with
  | error why =>
    rw [sum] at visited
    cases visited
  | ok place =>
    rw [sum] at visited
    dsimp only at visited
    cases found : w.array[place.toNat]? with
    | none =>
      rw [found] at visited
      cases visited
    | some element =>
      rw [← Word.add_eq_ok.1 sum]
      exact (Array.getElem?_eq_some_iff.1 found).1

/-- A sequential walk is finished exactly if its mask is zero. -/
theorem exists_run_iff (filled : w.array.size ≠ 0) (counted : w.array.size < 2 ^ 64)
    (sequential : w.pattern = .sequential) :
    (∃ baseline access, w.run = .ok (baseline, access)) ↔ w.mask = 0 := by
  constructor
  · rintro ⟨baseline, access, finished⟩
    unfold run at finished
    split at finished
    · cases finished
    dsimp only at finished
    cases loop : w.accessLoop w.baselineLoop.register with
    | error why =>
      rw [loop] at finished
      cases finished
    | ok trace =>
      -- The first pass is always made as a whole, so it comes to the last element.
      have member : w.array.size - 1 ∈ List.range w.rounds := by
        have enough : w.array.size ≤ w.rounds := Nat.le_max_right _ _
        rw [List.mem_range]
        omega
      obtain ⟨before, behind, visited⟩ := exists_of_foldlM_eq_ok loop member
      have inside := index_add_mask_lt visited
      rw [toNat_index_of_sequential sequential counted (by omega),
        Nat.mod_eq_of_lt (by omega)] at inside
      have nothing : w.mask.toNat = 0 := by omega
      exact UInt64.toNat_inj.1 nothing
  · intro hidden
    obtain ⟨baseline, access, finished, -⟩ := run_of_mask_zero filled hidden
    exact ⟨baseline, access, finished⟩

/-! ## Whole walks -/

/-- With a mask of zero the access loop of a finished walk is the loop of visits. -/
theorem access_eq_loop (filled : w.array.size ≠ 0) (hidden : w.mask = 0) {baseline access : Trace}
    (finished : w.run = .ok (baseline, access)) : access = w.loop w.rounds := by
  unfold run at finished
  split at finished
  · cases finished
  · dsimp only at finished
    rw [accessLoop_of_mask_zero filled hidden] at finished
    cases finished
    rfl

/-- A sequential walk over an array that is not empty, and that has a word for its length as every
array in memory has, is finished exactly if its mask is zero, as it is in every measurement. Then its
access loop makes as many visits as are asked for, or as there are elements if these are more, and
each of them is to an element of the array. Every element is visited once at least, and no element
more than once oftener than another: the numbers of visits are the number of whole passes, and one
more for the elements that the broken pass gets to. -/
theorem sequential_visits_even (filled : w.array.size ≠ 0) (counted : w.array.size < 2 ^ 64)
    (sequential : w.pattern = .sequential) :
    ((∃ baseline access, w.run = .ok (baseline, access)) ↔ w.mask = 0) ∧
      ∀ baseline access, w.run = .ok (baseline, access) →
        access.indices.size = max w.repeats.toNat w.array.size ∧
          ∑ element ∈ Finset.range w.array.size, access.visits element =
            max w.repeats.toNat w.array.size ∧
          (∀ element < w.array.size,
            access.visits element =
              max w.repeats.toNat w.array.size / w.array.size +
                if element < max w.repeats.toNat w.array.size % w.array.size then 1 else 0) ∧
          (∀ element < w.array.size, 1 ≤ access.visits element) ∧
          ∀ element < w.array.size, ∀ other < w.array.size,
            access.visits element ≤ access.visits other + 1 := by
  refine ⟨exists_run_iff filled counted sequential, ?_⟩
  intro baseline access finished
  have hidden := (exists_run_iff filled counted sequential).1 ⟨baseline, access, finished⟩
  obtain rfl := access_eq_loop filled hidden finished
  have words : w.rounds ≤ 2 ^ 64 := by
    have asked := UInt64.toNat_lt w.repeats
    unfold rounds
    omega
  have visits : ∀ element < w.array.size, (w.loop w.rounds).visits element =
      w.rounds / w.array.size + if element < w.rounds % w.array.size then 1 else 0 :=
    fun element inside => visits_loop_eq sequential counted inside words
  have passes : 1 ≤ w.rounds / w.array.size :=
    Nat.div_pos (Nat.le_max_right _ _) (Nat.pos_of_ne_zero filled)
  refine ⟨w.size_indices_loop w.rounds, sum_visits_loop filled w.rounds, visits, ?_, ?_⟩
  · intro element inside
    rw [visits element inside]
    exact Nat.le_add_right_of_le passes
  · intro element inside other inside'
    rw [visits element inside, visits other inside']
    split <;> split <;> omega

/-- A sequential walk of eight visits over an array of three: two passes, and two elements more. -/
def brokenPass : Walk := { pattern := .sequential, repeats := 8, array := #[5, 5, 9], mask := 0 }

/-- In eight visits over three elements the first two are visited three times and the last one
twice. -/
theorem sequential_visits_brokenPass :
    brokenPass.array.size ≠ 0 ∧ brokenPass.array.size < 2 ^ 64 ∧
      brokenPass.pattern = .sequential ∧
      ∃ baseline access, brokenPass.run = .ok (baseline, access) ∧
        access.visits 0 = 3 ∧ access.visits 1 = 3 ∧ access.visits 2 = 2 := by
  have filled : brokenPass.array.size ≠ 0 := by decide
  have counted : brokenPass.array.size < 2 ^ 64 := by decide
  have ⟨finishes, even⟩ := sequential_visits_even filled counted rfl
  obtain ⟨baseline, access, finished⟩ := finishes.2 rfl
  obtain ⟨-, -, visits, -, -⟩ := even baseline access finished
  exact ⟨filled, counted, rfl, baseline, access, finished, visits 0 (by decide),
    visits 1 (by decide), visits 2 (by decide)⟩

end Walk

end AccessLatency
