import AccessLatency.Benchmark.ShiftRegister
import Mathlib.Dynamics.PeriodicPts.Defs
import Mathlib.Tactic

/-!
# The period of the shift register

Read a state as a polynomial over the field of two elements, its highest bit as the constant term.
Then a step multiplies by the variable, modulo a polynomial of degree 64 that the taps spell; and the
state after a number of steps from any state is the product of that state and the state after as
many steps from the constant one, `steps_eq_product`. So the state after any number of steps is
found by squaring, `steps_eq_power`, in as many products as the number has binary digits.

The number of states other than zero is the product of seven primes. The seed comes back after that
many steps, and does not after that many divided by any of the primes; hence it comes back no sooner,
and on the way there are no two equal states and no zero: `steps_seed_injective`.
-/

set_option autoImplicit false

namespace AccessLatency

namespace ShiftRegister

open Function

variable {f : UInt64 → UInt64} {s : UInt64}

/-! ## One step -/

/-- A state whose lowest bit is clear is shifted. -/
theorem step_of_even (h : s.toNat % 2 = 0) : step s = s >>> 1 := by
  have low : s &&& 1 = 0 := by
    rw [← UInt64.toNat_inj, UInt64.toNat_and]
    exact (Nat.and_one_is_mod s.toNat).trans h
  unfold step
  rw [low]
  simp

/-- A state whose lowest bit is set is shifted, and the taps are flipped. -/
theorem step_of_odd (h : s.toNat % 2 = 1) : step s = (s >>> 1) ^^^ taps := by
  have low : s &&& 1 = 1 := by
    rw [← UInt64.toNat_inj, UInt64.toNat_and]
    exact (Nat.and_one_is_mod s.toNat).trans h
  unfold step
  rw [low]
  simp

/-- The state zero stays as it is. -/
theorem step_zero : step 0 = 0 := (step_of_even rfl).trans rfl

/-- A step of a sum is the sum of the steps. -/
theorem step_xor (a b : UInt64) : step (a ^^^ b) = step a ^^^ step b := by
  have parity : (a ^^^ b).toNat % 2 = 1 ↔ ¬ (a.toNat % 2 = 1 ↔ b.toNat % 2 = 1) := by
    rw [UInt64.toNat_xor, Nat.xor_mod_two_eq_one]
  -- Only whether the lowest bits are set matters, and two odd states cancel the taps.
  rcases Nat.mod_two_eq_zero_or_one a.toNat with ha | ha <;>
    rcases Nat.mod_two_eq_zero_or_one b.toNat with hb | hb
  · rw [step_of_even (by omega), step_of_even ha, step_of_even hb, UInt64.shiftRight_xor]
  · rw [step_of_odd (by omega), step_of_even ha, step_of_odd hb, UInt64.shiftRight_xor,
      UInt64.xor_assoc]
  · rw [step_of_odd (by omega), step_of_odd ha, step_of_even hb, UInt64.shiftRight_xor]
    generalize taps = t
    ac_rfl
  · rw [step_of_even (by omega), step_of_odd ha, step_of_odd hb, UInt64.shiftRight_xor]
    generalize taps = t
    calc a >>> 1 ^^^ b >>> 1 = a >>> 1 ^^^ b >>> 1 ^^^ (t ^^^ t) := by
          rw [UInt64.xor_self, UInt64.xor_zero]
      _ = a >>> 1 ^^^ t ^^^ (b >>> 1 ^^^ t) := by ac_rfl

/-! ## Products -/

/-- A map of states that keeps sums and steps. -/
structure IsLinear (f : UInt64 → UInt64) : Prop where
  sum : ∀ a b, f (a ^^^ b) = f a ^^^ f b
  step : ∀ s, f (step s) = step (f s)

/-- A step keeps sums and steps. -/
theorem isLinear_step : IsLinear step := ⟨step_xor, fun _ => rfl⟩

/-- Any number of steps keeps sums and steps. -/
theorem isLinear_steps (n : Nat) : IsLinear (steps n) := by
  induction n with
  | zero => exact ⟨fun _ _ => rfl, fun _ => rfl⟩
  | succ n ih =>
    constructor
    · intro a b
      rw [steps, step_xor, ih.sum]
      rfl
    · intro s
      exact ih.step (step s)

/-- What keeps sums takes zero to zero. -/
theorem IsLinear.zero (h : IsLinear f) : f 0 = 0 := by
  have twice := h.sum 0 0
  rwa [UInt64.xor_self, UInt64.xor_self] at twice

/-- The part of a product that the lowest bits of the second factor contribute, `k` of them, over
the power of the variable that the highest of them stands for. -/
def partialProduct (a c : UInt64) : Nat → UInt64
  | 0 => 0
  | k + 1 => (if c.toNat.testBit k then a else 0) ^^^ step (partialProduct a c k)

/-- The product of two states. -/
def product (a c : UInt64) : UInt64 := partialProduct a c 64

/-- The state that stands for a single bit. -/
def single (k : Nat) : UInt64 := UInt64.ofNat (2 ^ k)

/-- The constant one. -/
def unit : UInt64 := single 63

/-- A linear map may be applied to the first factor of a product. -/
theorem IsLinear.map_partialProduct (h : IsLinear f) (a c : UInt64) (k : Nat) :
    f (partialProduct a c k) = partialProduct (f a) c k := by
  induction k with
  | zero => exact h.zero
  | succ k ih =>
    rw [partialProduct, partialProduct, h.sum, h.step, ih]
    split
    · rfl
    · rw [h.zero]

/-- A step moves a single bit down by one. -/
theorem step_single {k : Nat} (h : k < 63) : step (single (k + 1)) = single k := by
  have above : 2 ^ (k + 1) < 2 ^ 64 := Nat.pow_lt_pow_right (by decide) (by omega)
  have below : 2 ^ k < 2 ^ 64 := Nat.pow_lt_pow_right (by decide) (by omega)
  have value : (single (k + 1)).toNat = 2 ^ k * 2 := by
    unfold single
    rw [UInt64.toNat_ofNat_of_lt' above, Nat.pow_succ]
  rw [step_of_even (by omega), ← UInt64.toNat_inj, UInt64.toNat_shiftRight, value]
  unfold single
  rw [UInt64.toNat_ofNat_of_lt' below]
  exact Nat.mul_div_cancel (2 ^ k) (by decide)

/-- The lowest bits of a number, one more of them. -/
theorem xor_mod_two_pow (n k : Nat) :
    (if n.testBit k then 2 ^ k else 0) ^^^ n % 2 ^ k = n % 2 ^ (k + 1) := by
  apply Nat.eq_of_testBit_eq
  intro i
  rw [Nat.testBit_xor, Nat.testBit_mod_two_pow, Nat.testBit_mod_two_pow]
  rcases Nat.lt_trichotomy i k with below | rfl | above
  · cases n.testBit k <;> simp [below, below.ne', Nat.lt_succ_of_lt below]
  · cases bit : n.testBit i <;> simp
  · have far : ¬ i < k + 1 := by omega
    cases n.testBit k <;> simp [above.ne, above.not_gt, far]

/-- A single bit, multiplied by the lowest bits of a word up to its own place, gives these bits. -/
theorem partialProduct_single {k : Nat} (h : k < 64) (c : UInt64) :
    partialProduct (single k) c (k + 1) = UInt64.ofNat (c.toNat % 2 ^ (k + 1)) := by
  have lowest : ∀ i, (if c.toNat.testBit i then single i else 0) =
      UInt64.ofNat (if c.toNat.testBit i then 2 ^ i else 0) := by
    intro i
    split <;> rfl
  induction k with
  | zero =>
    rw [partialProduct, partialProduct, lowest, ← xor_mod_two_pow, UInt64.ofNat_xor, Nat.pow_zero,
      Nat.mod_one, step_zero]
    rfl
  | succ k ih =>
    rw [partialProduct, isLinear_step.map_partialProduct, step_single (by omega), ih (by omega),
      lowest, ← UInt64.ofNat_xor, xor_mod_two_pow]

/-- A product with the constant one is the other factor. -/
theorem product_unit (c : UInt64) : product unit c = c := by
  unfold product unit
  rw [partialProduct_single (by decide), Nat.mod_eq_of_lt (UInt64.toNat_lt c), UInt64.ofNat_toNat]

/-- Steps from a state multiply it by the state that as many steps lead to from the constant one. -/
theorem steps_eq_product (n : Nat) (c : UInt64) : steps n c = product (steps n unit) c := by
  have moved := (isLinear_steps n).map_partialProduct unit c 64
  rwa [show partialProduct unit c 64 = c from product_unit c] at moved

/-! ## Powers -/

/-- The power of the variable with an exponent of at most `k` binary digits. -/
def power : Nat → Nat → UInt64
  | 0, _ => unit
  | k + 1, n =>
    let square := product (power k (n / 2)) (power k (n / 2))
    if n % 2 = 1 then step square else square

/-- The power by squaring is the state after as many steps from the unit. -/
theorem power_eq_steps {k n : Nat} (h : n < 2 ^ k) : power k n = steps n unit := by
  induction k generalizing n with
  | zero =>
    obtain rfl : n = 0 := by omega
    rfl
  | succ k ih =>
    have half : power k (n / 2) = steps (n / 2) unit := ih (by omega)
    have square : product (power k (n / 2)) (power k (n / 2)) = steps (n / 2 + n / 2) unit := by
      rw [half, ← steps_eq_product, steps_add]
    rw [power, square]
    split
    · have digits : n = n / 2 + n / 2 + 1 := by omega
      conv_rhs => rw [digits, steps_add]
      rfl
    · have digits : n = n / 2 + n / 2 := by omega
      conv_rhs => rw [digits]

/-- The state after any number of steps that a word counts, found by squaring. -/
theorem steps_eq_power {n : Nat} (h : n < 2 ^ 64) (c : UInt64) :
    steps n c = product (power 64 n) c := by
  rw [power_eq_steps h, ← steps_eq_product]

/-! ## The period -/

/-- The number of states other than zero. -/
def fullPeriod : Nat := 2 ^ 64 - 1

/-- Steps are the iterates of a single step. -/
theorem steps_eq_iterate (n : Nat) (c : UInt64) : steps n c = step^[n] c := by
  induction n generalizing c with
  | zero => rfl
  | succ n ih => exact ih (step c)

/-- A point of a period that no prime can be divided out of has no shorter one. -/
theorem minimalPeriod_eq_of_prime {α : Type} {g : α → α} {x : α} {n : Nat}
    (periodic : IsPeriodicPt g n x)
    (minimal : ∀ p, p.Prime → p ∣ n → ¬ IsPeriodicPt g (n / p) x) : minimalPeriod g x = n := by
  obtain ⟨q, whole⟩ := periodic.minimalPeriod_dvd
  by_contra other
  have shorter : q ≠ 1 := by
    rintro rfl
    exact other (by omega)
  obtain ⟨p, prime, r, rfl⟩ := Nat.exists_prime_and_dvd shorter
  have split : n = p * (minimalPeriod g x * r) := by rw [whole, Nat.mul_left_comm]
  apply minimal p prime (Dvd.intro _ split.symm)
  rw [split, Nat.mul_div_cancel_left _ prime.pos]
  exact (isPeriodicPt_minimalPeriod g x).mul_const r

/-- The prime factors of the full period. -/
def periodFactors : List Nat := [3, 5, 17, 257, 641, 65537, 6700417]

/-- The factors multiply to the full period. -/
theorem prod_periodFactors : periodFactors.prod = fullPeriod := by decide

/-- Every prime factor of the full period is one of the factors. -/
theorem mem_periodFactors {p : Nat} (prime : p.Prime) (h : p ∣ fullPeriod) : p ∈ periodFactors := by
  have primes : ∀ q ∈ periodFactors, Prime q := by
    intro q member
    simp only [periodFactors, List.mem_cons, List.not_mem_nil, or_false] at member
    rw [← Nat.prime_iff]
    rcases member with rfl | rfl | rfl | rfl | rfl | rfl | rfl <;> norm_num
  rw [← prod_periodFactors] at h
  exact mem_list_primes_of_dvd_prod prime.prime primes h

/-- A full period leads the unit back to itself. -/
theorem power_fullPeriod : power 64 fullPeriod = unit := by decide +kernel

/-- No full period divided by one of its prime factors leads the seed back to itself. -/
theorem product_power_ne :
    ∀ p ∈ periodFactors, product (power 64 (fullPeriod / p)) seed ≠ seed := by decide +kernel

/-- The seed comes back after a full period and not before. -/
theorem minimalPeriod_seed : minimalPeriod step seed = fullPeriod := by
  apply minimalPeriod_eq_of_prime
  · show step^[fullPeriod] seed = seed
    rw [← steps_eq_iterate, steps_eq_power (by decide), power_fullPeriod, product_unit]
  · intro p prime divides returned
    have least : fullPeriod / p < 2 ^ 64 :=
      Nat.lt_of_le_of_lt (Nat.div_le_self fullPeriod p) (by decide)
    apply product_power_ne p (mem_periodFactors prime divides)
    rw [← steps_eq_power least, steps_eq_iterate]
    exact returned

/-- After a full period the state is the seed again. -/
theorem steps_fullPeriod_seed : steps fullPeriod seed = seed := by
  rw [steps_eq_iterate, ← minimalPeriod_seed]
  exact iterate_minimalPeriod

/-- No state of a period is zero, for zero would never lead back to the seed. -/
theorem steps_seed_ne_zero {i : Nat} (h : i ≤ fullPeriod) : steps i seed ≠ 0 := by
  intro zero
  have stuck : steps fullPeriod seed = 0 := by
    rw [← Nat.add_sub_of_le h, steps_add, zero]
    exact (isLinear_steps (fullPeriod - i)).zero
  rw [steps_fullPeriod_seed] at stuck
  exact absurd stuck (by decide)

/-- From the seed on, no state comes twice and none is zero for as many steps as there are states
other than zero; after these the seed comes back. -/
theorem steps_seed_injective :
    (∀ i j, i < j → j < 2 ^ 64 - 1 →
      steps i seed ≠ steps j seed ∧ steps i seed ≠ 0 ∧ steps j seed ≠ 0) ∧
    steps (2 ^ 64 - 1) seed = seed := by
  refine ⟨?_, steps_fullPeriod_seed⟩
  intro i j before inside
  have short : j < minimalPeriod step seed := by
    rw [minimalPeriod_seed]
    exact inside
  refine ⟨?_, steps_seed_ne_zero (before.trans inside).le, steps_seed_ne_zero inside.le⟩
  rw [steps_eq_iterate, steps_eq_iterate]
  intro same
  have equal := (iterate_eq_iterate_iff_of_lt_minimalPeriod (before.trans short) short).1 same
  omega

/-- Halfway through the states, the seed has not come back. -/
theorem steps_seed_halfway : 0 < 2 ^ 63 ∧ 2 ^ 63 < 2 ^ 64 - 1 ∧ steps 0 seed ≠ steps (2 ^ 63) seed :=
  have inside : 2 ^ 63 < 2 ^ 64 - 1 := by decide
  ⟨by decide, inside, (steps_seed_injective.1 0 (2 ^ 63) (by decide) inside).1⟩

end ShiftRegister

end AccessLatency
