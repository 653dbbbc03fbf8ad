import AccessLatency.Benchmark.Walk
import Mathlib.Tactic

/-!
# The two loops of a walk

The latency is the difference of two times, so it is worth something only if both loops do the same
but for the access. In a real measurement the mask is zero. Then a visit of either loop is one and
the same thing, `visit`: a step of the register, and an index taken from the state before it. The
access loop starts from the seed again, so it visits what the baseline loop computes, index by index,
and every index is inside the array: `run_of_mask_zero`. What the array holds makes no difference.
-/

set_option autoImplicit false

namespace AccessLatency

namespace ShiftRegister

/-- The last of several steps is a step from the state before it. -/
theorem steps_succ (n : Nat) (state : UInt64) : steps (n + 1) state = step (steps n state) :=
  steps_add n 1 state

end ShiftRegister

namespace Walk

open ShiftRegister

variable {w : Walk}

/-! ## One visit -/

/-- A remainder by the size of an array is an index of the array. -/
theorem toNat_mod_ofNat_lt (x : UInt64) {n : Nat} (h : n ≠ 0) : (x % UInt64.ofNat n).toNat < n := by
  have below := UInt64.toNat_lt x
  rw [UInt64.toNat_mod, UInt64.toNat_ofNat']
  -- A number that is no word leaves the remainder of its lowest bits, or the word itself.
  rcases Nat.eq_zero_or_pos (n % 2 ^ 64) with whole | part
  · rw [whole, Nat.mod_zero]
    omega
  · exact Nat.lt_of_lt_of_le (Nat.mod_lt _ part) (Nat.mod_le n (2 ^ 64))

/-- An index is inside the array, whatever the register and the number of the visit are. -/
theorem index_lt (filled : w.array.size ≠ 0) (visit register : UInt64) :
    (w.index visit register).toNat < w.array.size := by
  unfold index
  cases w.pattern with
  | random => exact toNat_mod_ofNat_lt register filled
  | sequential => exact toNat_mod_ofNat_lt visit filled

/-- A visit that leaves the register to itself. -/
def visit (w : Walk) (t : Trace) (number : Nat) : Trace :=
  ⟨step t.register, t.indices.push (w.index (UInt64.ofNat number) t.register)⟩

/-- With a mask of zero a visit of the baseline loop is the common one. -/
theorem baselineVisit_of_mask_zero (hidden : w.mask = 0) (t : Trace) (number : Nat) :
    w.baselineVisit t number = w.visit t number := by
  unfold baselineVisit visit
  dsimp only
  rw [hidden, UInt64.and_zero, UInt64.xor_zero]

/-- With a mask of zero a visit of the access loop is the common one: its element is in the array,
and the masked element adds nothing to the state. -/
theorem accessVisit_of_mask_zero (filled : w.array.size ≠ 0) (hidden : w.mask = 0) (t : Trace)
    (number : Nat) : w.accessVisit t number = .ok (w.visit t number) := by
  have inside := index_lt filled (UInt64.ofNat number) t.register
  have place : Word.add (w.index (UInt64.ofNat number) t.register) 0 =
      .ok (w.index (UInt64.ofNat number) t.register) := Word.add_eq_ok.2 rfl
  unfold accessVisit visit
  dsimp only
  rw [hidden, place]
  dsimp only
  rw [Array.getElem?_eq_getElem inside]
  dsimp only
  rw [UInt64.and_zero, UInt64.xor_zero]

/-! ## Both loops -/

/-- The loop that both loops come down to. -/
def loop (w : Walk) (count : Nat) : Trace := (List.range count).foldl w.visit ⟨seed, #[]⟩

/-- A loop of one visit more makes this visit last. -/
theorem loop_succ (w : Walk) (count : Nat) : w.loop (count + 1) = w.visit (w.loop count) count := by
  unfold loop
  rw [List.range_succ, List.foldl_append]
  rfl

/-- With a mask of zero the baseline loop is the loop of common visits. -/
theorem baselineLoop_of_mask_zero (hidden : w.mask = 0) : w.baselineLoop = w.loop w.rounds := by
  have same : w.baselineVisit = w.visit := by
    funext t number
    exact baselineVisit_of_mask_zero hidden t number
  unfold baselineLoop loop
  rw [same]

/-- With a mask of zero the access loop is the loop of common visits, and it starts over from the
seed. -/
theorem accessLoop_of_mask_zero (filled : w.array.size ≠ 0) (hidden : w.mask = 0)
    (register : UInt64) : w.accessLoop register = .ok (w.loop w.rounds) := by
  have same : w.accessVisit = fun t number => pure (w.visit t number) := by
    funext t number
    exact accessVisit_of_mask_zero filled hidden t number
  unfold accessLoop loop
  rw [same, hidden, UInt64.and_zero, UInt64.zero_xor, List.foldlM_pure]
  rfl

/-- The register makes a step with each visit. -/
theorem register_loop (w : Walk) (count : Nat) : (w.loop count).register = steps count seed := by
  induction count with
  | zero => rfl
  | succ count ih =>
    rw [loop_succ, steps_succ, ← ih]
    rfl

/-- Each visit has its index from the state that the steps before it lead to. -/
theorem indices_loop (w : Walk) (count : Nat) :
    (w.loop count).indices.toList =
      (List.range count).map fun i => w.index (UInt64.ofNat i) (steps i seed) := by
  induction count with
  | zero => rfl
  | succ count ih =>
    rw [loop_succ, List.range_succ, List.map_append, ← ih, List.map_singleton, ← register_loop]
    exact Array.toList_push

/-- A loop has as many indices as visits. -/
theorem size_indices_loop (w : Walk) (count : Nat) : (w.loop count).indices.size = count := by
  rw [← Array.length_toList, indices_loop, List.length_map, List.length_range]

/-- With a mask of zero, a walk over an array that is not empty is finished. Both of its loops make as
many visits as are asked for, or as there are elements if these are more. At each visit both have
the same index, the one for the state that as many steps lead to from the seed, and it is inside the
array. They end with the register as that many steps leave it, whatever the order of the walk is and
whatever the array holds. -/
theorem run_of_mask_zero (filled : w.array.size ≠ 0) (hidden : w.mask = 0) :
    ∃ baseline access, w.run = .ok (baseline, access) ∧
      baseline.indices.size = max w.repeats.toNat w.array.size ∧
      access.indices.size = max w.repeats.toNat w.array.size ∧
      (∀ i, i < max w.repeats.toNat w.array.size →
        baseline.indices[i]? = some (w.index (UInt64.ofNat i) (steps i seed)) ∧
          access.indices[i]? = some (w.index (UInt64.ofNat i) (steps i seed)) ∧
          (w.index (UInt64.ofNat i) (steps i seed)).toNat < w.array.size) ∧
      baseline.register = steps (max w.repeats.toNat w.array.size) seed ∧
      access.register = steps (max w.repeats.toNat w.array.size) seed := by
  have size := w.size_indices_loop w.rounds
  have register := w.register_loop w.rounds
  refine ⟨w.loop w.rounds, w.loop w.rounds, ?_, size, size, ?_, register, register⟩
  · have nonempty : w.array.isEmpty = false := by
      rw [Array.isEmpty_eq_false_iff]
      intro empty
      exact filled (by rw [empty]; rfl)
    unfold run
    rw [nonempty, baselineLoop_of_mask_zero hidden]
    dsimp only
    rw [accessLoop_of_mask_zero filled hidden]
    rfl
  · intro i inside
    have found : (w.loop w.rounds).indices[i]? =
        some (w.index (UInt64.ofNat i) (steps i seed)) := by
      rw [← Array.getElem?_toList, indices_loop, List.getElem?_map, rounds,
        List.getElem?_range inside]
      rfl
    exact ⟨found, found, index_lt filled _ _⟩

/-- A random walk of five visits over an array of three. -/
def shortWalk : Walk := { pattern := .random, repeats := 5, array := #[7, 0, 12345], mask := 0 }

/-- The walk is asked for more visits than there are elements, and makes as many as it is asked for. It
ends with the register five steps from the seed. -/
theorem run_shortWalk :
    shortWalk.array.size ≠ 0 ∧ shortWalk.mask = 0 ∧
      ∃ baseline access, shortWalk.run = .ok (baseline, access) ∧
        baseline.indices.size = 5 ∧ access.register = steps 5 seed := by
  have filled : shortWalk.array.size ≠ 0 := by decide
  obtain ⟨baseline, access, run, size, -, -, -, register⟩ :=
    run_of_mask_zero filled (rfl : shortWalk.mask = 0)
  exact ⟨filled, rfl, baseline, access, run, size, register⟩

end Walk

end AccessLatency
