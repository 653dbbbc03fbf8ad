import AccessLatency.Proofs.Binary64.DecimalValue
import Mathlib.Tactic

/-!
# Seventeen digits tell a number

The search for the shortest digits ends with digits that read back. On the grid of seventeen digits
one of the two neighbours of a number is at most half a step away from it; a step is at most one
part in `10 ^ 16` of the number, and that half of it is less than one part in `2 ^ 54`. So the
neighbour is near enough to be read as the number, and the search finds it if nothing shorter was
found: `shortest_readsBack`.
-/

set_option autoImplicit false

namespace AccessLatency

namespace Binary64

namespace Digits

/-- Digits as a decimal without a sign. -/
def decimal (d : Digits) : Decimal := ⟨false, d.digits, d.exponent⟩

/-- Digits read back as a magnitude exactly if they are read as the number without a sign. -/
theorem readsBack_iff {d : Digits} {m : Magnitude} :
    d.readsBack m.quanta = true ↔ d.decimal.toBinary64 = .finite false m := by
  unfold readsBack decimal
  constructor
  · intro h
    split at h
    · rename_i n same
      obtain ⟨quanta, _, _⟩ := n
      obtain ⟨quanta', _, _⟩ := m
      obtain rfl : quanta = quanta' := by simpa using h
      exact same
    · cases h
  · intro h
    rw [h]
    exact beq_self_eq_true _

/-- Digits less than one part in `2 ^ 54` away from a magnitude read back as it. -/
theorem readsBack_of_near {d : Digits} (m : Magnitude)
    (near : |d.decimal.quanta - m.quanta| * 2 ^ 54 < m.quanta) : d.readsBack m.quanta = true :=
  readsBack_iff.2 (Decimal.toBinary64_eq_of_near m near)

/-- The digits after some digits are worth one step of the grid more, also where they carry into a
further place. -/
theorem quanta_next (d : Digits) (count : Nat) :
    (d.next count).decimal.quanta = (d.digits + 1) * (10 ^ d.exponent * unit) := by
  unfold next
  split
  · rename_i full
    have full' : (d.digits : ℚ) + 1 = 10 ^ count := by exact_mod_cast full
    unfold decimal Decimal.quanta
    dsimp only
    rw [full', zpow_add₀ (by norm_num : (10 : ℚ) ≠ 0), zpow_natCast, Nat.cast_one]
    ring
  · unfold decimal Decimal.quanta
    dsimp only
    rw [Nat.cast_add, Nat.cast_one, mul_assoc]

end Digits

/-- The scale on which the places of a number are counted is finer than a quantum. -/
theorem unit_le_scale : unit ≤ 10 ^ 400 := by
  unfold unit
  decide +kernel

/-- The decimal point of a number stands between two neighbouring powers of ten. -/
theorem decimalPoint_bounds {n : Nat} (h : 0 < n) :
    (10 : ℚ) ^ (decimalPoint n - 1) * unit ≤ n ∧ (n : ℚ) < 10 ^ decimalPoint n * unit := by
  have ten : (10 : ℚ) ≠ 0 := by norm_num
  have shift : (400 : ℤ) = (400 : ℕ) := rfl
  have fine := unit_le_scale
  have one := unit_pos
  unfold decimalPoint
  rw [shift]
  generalize 400 = k at fine ⊢
  generalize unit = u at fine one ⊢
  have scale : (0 : ℚ) < 10 ^ k := by positivity
  have pos : 0 < n * 10 ^ k / u :=
    Nat.div_pos (fine.trans (Nat.le_mul_of_pos_left _ h)) one
  have places := Text.length_decimal_pos (n * 10 ^ k / u)
  have least := Text.pow_length_decimal_le pos
  have most := Text.lt_pow_length_decimal (n * 10 ^ k / u)
  change 0 < Decimal.length _ at places
  change 10 ^ (Decimal.length _ - 1) ≤ _ at least
  change _ < 10 ^ Decimal.length _ at most
  generalize Decimal.length (n * 10 ^ k / u) = l at places least most ⊢
  rw [Nat.le_div_iff_mul_le one] at least
  rw [Nat.div_lt_iff_lt_mul one] at most
  have least' : (10 : ℚ) ^ (l - 1) * u ≤ n * 10 ^ k := by exact_mod_cast least
  have most' : (n : ℚ) * 10 ^ k < 10 ^ l * u := by exact_mod_cast most
  have before : (l : ℤ) - k - 1 = (l - 1 : ℕ) - (k : ℤ) := by omega
  constructor
  · rw [before, zpow_sub₀ ten, zpow_natCast, zpow_natCast, div_mul_eq_mul_div, div_le_iff₀ scale]
    exact least'
  · rw [zpow_sub₀ ten, zpow_natCast, zpow_natCast, div_mul_eq_mul_div, lt_div_iff₀ scale]
    exact most'

/-! ## Neighbours on a grid -/

/-- A step of the grid is worth something. -/
theorem step_pos (exponent : Int) : (0 : ℚ) < 10 ^ exponent * unit := by
  have one : (0 : ℚ) < unit := by exact_mod_cast unit_pos
  exact mul_pos (zpow_pos (by norm_num) exponent) one

/-- The quotient that `neighbours` divides is the number counted in steps of the grid. -/
theorem quotient_eq_steps {n p q : Nat} {exponent : Int}
    (hp : (if exponent < 0 then n * 10 ^ (-exponent).toNat else n) = p)
    (hq : (if exponent < 0 then unit else unit * 10 ^ exponent.toNat) = q) :
    0 < q ∧ (n : ℚ) = p / q * (10 ^ exponent * unit) := by
  have one : (0 : ℚ) < unit := by exact_mod_cast unit_pos
  rcases lt_or_ge exponent 0 with negative | natural
  · obtain ⟨k, rfl⟩ := Int.exists_eq_neg_ofNat negative.le
    rw [if_pos negative, neg_neg, Int.toNat_natCast] at hp
    rw [if_pos negative] at hq
    subst hp hq
    refine ⟨unit_pos, ?_⟩
    push_cast
    rw [zpow_neg, zpow_natCast]
    generalize (unit : ℚ) = u at one ⊢
    field_simp
  · obtain ⟨k, rfl⟩ := Int.eq_ofNat_of_zero_le natural
    rw [if_neg natural.not_gt] at hp
    rw [if_neg natural.not_gt, Int.toNat_natCast] at hq
    subst hp hq
    refine ⟨Nat.mul_pos unit_pos (Nat.pow_pos (by omega)), ?_⟩
    push_cast
    rw [zpow_natCast]
    generalize (unit : ℚ) = u at one ⊢
    field_simp

section Near

variable {n p q : Nat} {exponent : Int}

/-- A quotient is its floor and the part that the remainder makes. -/
theorem div_eq_floor_add (hq : 0 < q) : (p : ℚ) / q = (p / q : ℕ) + ((p % q : ℕ) : ℚ) / q := by
  have pos : (0 : ℚ) < q := by exact_mod_cast hq
  have split : (q : ℚ) * (p / q : ℕ) + (p % q : ℕ) = p := by exact_mod_cast Nat.div_add_mod p q
  rw [← split]
  field_simp

/-- If the remainder is at most half, the digits below the number are at most half a step away. -/
theorem near_below (hq : 0 < q) (value : (n : ℚ) = p / q * (10 ^ exponent * unit))
    (half : 2 * (p % q) ≤ q) :
    2 * |(⟨p / q, exponent⟩ : Digits).decimal.quanta - n| ≤ 10 ^ exponent * unit := by
  have pos : (0 : ℚ) < q := by exact_mod_cast hq
  have step := step_pos exponent
  have least : (0 : ℚ) ≤ ((p % q : ℕ) : ℚ) / q := div_nonneg (Nat.cast_nonneg _) pos.le
  have most : 2 * (((p % q : ℕ) : ℚ) / q) ≤ 1 := by
    rw [mul_div_assoc', div_le_one pos]
    exact_mod_cast half
  have off : (⟨p / q, exponent⟩ : Digits).decimal.quanta - n =
      -(((p % q : ℕ) : ℚ) / q * (10 ^ exponent * unit)) := by
    rw [value, div_eq_floor_add hq]
    unfold Digits.decimal Decimal.quanta
    ring
  rw [off, abs_neg, abs_of_nonneg (mul_nonneg least step.le), ← mul_assoc]
  exact mul_le_of_le_one_left step.le most

/-- If the remainder is at least half, the digits above the number are at most half a step away. -/
theorem near_above (count : Nat) (hq : 0 < q) (value : (n : ℚ) = p / q * (10 ^ exponent * unit))
    (half : q ≤ 2 * (p % q)) :
    2 * |((⟨p / q, exponent⟩ : Digits).next count).decimal.quanta - n| ≤
      10 ^ exponent * unit := by
  have pos : (0 : ℚ) < q := by exact_mod_cast hq
  have step := step_pos exponent
  have least : 1 ≤ 2 * (((p % q : ℕ) : ℚ) / q) := by
    rw [mul_div_assoc', one_le_div pos]
    exact_mod_cast half
  have most : ((p % q : ℕ) : ℚ) / q < 1 := by
    rw [div_lt_one pos]
    exact_mod_cast Nat.mod_lt p hq
  have off : ((⟨p / q, exponent⟩ : Digits).next count).decimal.quanta - n =
      (1 - ((p % q : ℕ) : ℚ) / q) * (10 ^ exponent * unit) := by
    rw [value, div_eq_floor_add hq, Digits.quanta_next]
    ring
  rw [off, abs_of_nonneg (mul_nonneg (by linarith) step.le), ← mul_assoc]
  exact mul_le_of_le_one_left step.le (by linarith)

end Near

/-- One of the two neighbours of a number on a grid is at most half a step away from it. -/
theorem exists_neighbour (rule : TieRule) (n count : Nat) :
    ∃ d ∈ neighbours rule n count,
      2 * |d.decimal.quanta - n| ≤ 10 ^ (decimalPoint n - count) * unit := by
  unfold neighbours
  dsimp only
  generalize decimalPoint n - (count : ℤ) = exponent
  generalize hp : (if exponent < 0 then n * 10 ^ (-exponent).toNat else n) = p
  generalize hq : (if exponent < 0 then unit else unit * 10 ^ exponent.toNat) = q
  obtain ⟨pos, value⟩ := quotient_eq_steps hp hq
  -- In every case the neighbour that is tried first is the near one.
  split
  · exact ⟨_, List.mem_cons_self, near_below pos value (by omega)⟩
  · split
    · exact ⟨_, List.mem_cons_self, near_below pos value (by omega)⟩
    · exact ⟨_, List.mem_cons_self, near_above count pos value (by omega)⟩

/-- Among the neighbours with seventeen digits there is one that reads back. -/
theorem exists_neighbour_readsBack (rule : TieRule) {m : Magnitude} (h : 0 < m.quanta) :
    ∃ d ∈ neighbours rule m.quanta 17, d.readsBack m.quanta = true := by
  obtain ⟨d, hd, close⟩ := exists_neighbour rule m.quanta 17
  refine ⟨d, hd, Digits.readsBack_of_near m ?_⟩
  have least := (decimalPoint_bounds h).1
  have step := step_pos (decimalPoint m.quanta - (17 : ℕ))
  have places : (10 : ℚ) ^ (decimalPoint m.quanta - 1) =
      10 ^ 16 * 10 ^ (decimalPoint m.quanta - (17 : ℕ)) := by
    rw [← zpow_natCast, ← zpow_add₀ (by norm_num : (10 : ℚ) ≠ 0)]
    congr 1
    push_cast
    ring
  rw [places, mul_assoc] at least
  linarith

/-- The digits that the search ends with read back. -/
theorem shortest_readsBack (rule : TieRule) {m : Magnitude} (h : 0 < m.quanta) :
    (shortest rule m.quanta).readsBack m.quanta = true := by
  have found : ((List.range 17).findSome? fun i =>
      (neighbours rule m.quanta (i + 1)).find? fun d => d.readsBack m.quanta).isSome = true := by
    rw [List.findSome?_isSome_iff]
    exact ⟨16, by simp, List.find?_isSome.2 (exists_neighbour_readsBack rule h)⟩
  obtain ⟨d, hd⟩ := Option.isSome_iff_exists.1 found
  obtain ⟨i, -, hi⟩ := List.exists_of_findSome?_eq_some hd
  unfold shortest
  rw [hd, Option.getD_some]
  have back := List.find?_some hi
  exact back

end Binary64

end AccessLatency
