import AccessLatency.Binary64.Shortest
import AccessLatency.Proofs.Binary64.Scaling
import AccessLatency.Proofs.Text.Digits
import Mathlib.Tactic

/-!
# Decimals are rounded correctly

A decimal writes an exact number of quanta, a rational one. The reader does not compute the power of
ten of a decimal that is far beyond the finite numbers, or far below the smallest one; that makes no
difference, and `toBinary64_eq_round` says that every decimal is read as the rounding of its exact
value. So what the reader makes of a decimal depends on the exact value alone. A decimal of a whole
value is read as the number nearest to it, `toBinary64_eq_ofNat`, and one whose value is a number as
that number, `toBinary64_eq_finite`. Printing needs more: `toBinary64_eq_of_near` asks the decimal
only to be less than one part in `2 ^ 54` away from the number.
-/

set_option autoImplicit false

namespace AccessLatency

namespace Binary64

/-- A quotient near to a finite number is rounded to it. -/
theorem ofQuotient_eq_of_near (negative : Bool) {p d : Nat} (m : Magnitude) (hd : 0 < d)
    (near : |(p : ℚ) / d - m.quanta| * 2 ^ 54 < m.quanta) :
    ofQuotient negative p d = .finite negative m := by
  have pos : (0 : ℚ) < d := by exact_mod_cast hd
  have difference : (p : ℚ) / d - m.quanta = (p - m.quanta * d) / d := by
    field_simp
  rw [difference, abs_div, abs_of_pos pos, div_mul_eq_mul_div, div_lt_iff₀ pos, ← abs_two,
    ← abs_pow, ← abs_mul, abs_lt] at near
  obtain ⟨above, below⟩ := near
  have rounded : roundQuotient p d = m.quanta := by
    apply roundQuotient_eq_of_near m.fits
    · have : (2 : ℚ) ^ 54 * (m.quanta * d) < 2 ^ 54 * p + m.quanta * d := by linarith
      exact_mod_cast this
    · have : (2 : ℚ) ^ 54 * p < 2 ^ 54 * (m.quanta * d) + m.quanta * d := by linarith
      exact_mod_cast this
  exact ofQuotient_eq_finite negative rounded m.fits m.bounded

/-- Half a quantum is halfway between zero and the smallest number, and zero is even. -/
theorem roundQuotient_eq_zero {p d : Nat} (hd : 0 < d) (small : 2 * p ≤ d) :
    roundQuotient p d = 0 := by
  have floor : p / d = 0 := Nat.div_eq_of_lt (by omega)
  have rest : p % d = p := Nat.mod_eq_of_lt (by omega)
  unfold roundQuotient
  dsimp only
  rw [floor, gapExponent_eq_zero (by decide), Nat.pow_zero, Nat.mul_one, Nat.mul_one]
  unfold roundHalfEven
  dsimp only
  rw [floor, rest]
  split
  · rfl
  · rw [if_neg (by omega)]

/-- Up to half a quantum a quotient is rounded to zero. -/
theorem ofQuotient_eq_zero (negative : Bool) {p d : Nat} (hd : 0 < d) (small : 2 * p ≤ d) :
    ofQuotient negative p d = zero negative :=
  ofQuotient_eq_finite negative (roundQuotient_eq_zero hd small) _ quantaLimit_pos

/-- From the limit of the finite numbers on a quotient is rounded to infinity. -/
theorem ofQuotient_eq_infinity_of_le (negative : Bool) {p d : Nat} (hd : 0 < d)
    (large : quantaLimit * d ≤ p) : ofQuotient negative p d = .infinity negative := by
  apply ofQuotient_eq_infinity
  refine le_roundQuotient hd ?_ large
  unfold quantaLimit
  generalize 2098 = e
  exact fits_two_pow e

end Binary64

namespace Decimal

/-- The absolute value of a decimal, as an exact number of quanta. -/
def quanta (d : Decimal) : ℚ := d.digits * 10 ^ d.exponent * Binary64.unit

/-- What a decimal is rounded to is the rounding of its exact number of quanta. -/
theorem round_eq_ofQuotient (d : Decimal) :
    ∃ p q : Nat, 0 < q ∧ (p : ℚ) / q = d.quanta ∧
      d.round = Binary64.ofQuotient d.negative p q := by
  obtain ⟨negative, digits, exponent⟩ := d
  unfold round quanta
  by_cases whole : 0 ≤ exponent
  · obtain ⟨k, rfl⟩ := Int.eq_ofNat_of_zero_le whole
    refine ⟨digits * 10 ^ k * Binary64.unit, 1, Nat.one_pos, ?_, by simp⟩
    push_cast
    rw [div_one, zpow_natCast]
  · obtain ⟨k, hk⟩ := Int.exists_eq_neg_ofNat (not_le.1 whole).le
    subst hk
    refine ⟨digits * Binary64.unit, 10 ^ k, Nat.pow_pos (by omega), ?_, ?_⟩
    · push_cast
      rw [zpow_neg, zpow_natCast]
      ring
    · simp only [if_neg whole, neg_neg, Int.toNat_natCast]

/-- The exact value of a decimal lies between two neighbouring powers of ten. -/
theorem quanta_bounds {d : Decimal} (h : 0 < d.digits) :
    (10 : ℚ) ^ (d.exponent + length d.digits - 1) * Binary64.unit ≤ d.quanta ∧
      d.quanta < 10 ^ (d.exponent + length d.digits) * Binary64.unit := by
  have ten : (10 : ℚ) ≠ 0 := by norm_num
  have scale : (0 : ℚ) < 10 ^ d.exponent := zpow_pos (by norm_num) _
  have one : (0 : ℚ) < Binary64.unit := by exact_mod_cast Binary64.unit_pos
  have pos : 0 < length d.digits := Text.length_decimal_pos d.digits
  have low : (10 : ℚ) ^ (length d.digits - 1) ≤ d.digits := by
    exact_mod_cast Text.pow_length_decimal_le h
  have high : (d.digits : ℚ) < 10 ^ length d.digits := by
    exact_mod_cast Text.lt_pow_length_decimal d.digits
  have split : d.exponent + length d.digits - 1 = d.exponent + (length d.digits - 1 : ℕ) := by
    omega
  unfold quanta
  generalize (Binary64.unit : ℚ) = unit at one ⊢
  constructor
  · rw [split, zpow_add₀ ten, zpow_natCast, mul_comm ((10 : ℚ) ^ d.exponent)]
    gcongr
  · rw [zpow_add₀ ten, zpow_natCast, mul_comm ((10 : ℚ) ^ d.exponent)]
    gcongr

/-- The quanta in two are no more than `10 ^ 330`. -/
theorem two_mul_unit_le : 2 * Binary64.unit ≤ 10 ^ 330 := by
  unfold Binary64.unit
  decide +kernel

/-- Twice the limit of the finite numbers is no more than `10 ^ 310`. -/
theorem two_mul_quantaLimit_le : 2 * Binary64.quantaLimit ≤ 10 ^ 310 * Binary64.unit := by
  unfold Binary64.unit Binary64.quantaLimit
  decide +kernel

/-- A decimal of more than half a quantum is not so small that the reader takes it for zero. -/
theorem le_magnitude {d : Decimal} (pos : 0 < d.digits) (low : 1 / 2 < d.quanta) :
    -330 ≤ d.exponent + length d.digits := by
  have one : (0 : ℚ) < Binary64.unit := by exact_mod_cast Binary64.unit_pos
  have most := (quanta_bounds pos).2
  obtain ⟨k, hk, whole⟩ : ∃ k : ℕ, (k : ℤ) = 330 ∧ 2 * Binary64.unit ≤ 10 ^ k :=
    ⟨330, rfl, two_mul_unit_le⟩
  have bound : (2 : ℚ) * Binary64.unit ≤ 10 ^ k := by exact_mod_cast whole
  generalize (Binary64.unit : ℚ) = unit at one most bound
  by_contra small
  have power : (10 : ℚ) ^ (d.exponent + length d.digits) ≤ 10 ^ (-k : ℤ) :=
    zpow_le_zpow_right₀ (by norm_num) (by omega)
  have : d.quanta < 1 / 2 := by
    calc d.quanta < 10 ^ (d.exponent + length d.digits) * unit := most
      _ ≤ 10 ^ (-k : ℤ) * unit := by gcongr
      _ ≤ 1 / 2 := by
        rw [zpow_neg, inv_mul_le_iff₀ (by positivity), zpow_natCast]
        linarith
  linarith

/-- A decimal below twice the limit of the finite numbers is not so large that the reader takes it
for infinity. -/
theorem magnitude_le {d : Decimal} (pos : 0 < d.digits)
    (high : d.quanta < 2 * Binary64.quantaLimit) : d.exponent + length d.digits ≤ 310 := by
  have one : (0 : ℚ) < Binary64.unit := by exact_mod_cast Binary64.unit_pos
  have least := (quanta_bounds pos).1
  obtain ⟨k, hk, whole⟩ : ∃ k : ℕ, (k : ℤ) = 310 ∧
      2 * Binary64.quantaLimit ≤ 10 ^ k * Binary64.unit := ⟨310, rfl, two_mul_quantaLimit_le⟩
  have bound : (2 : ℚ) * Binary64.quantaLimit ≤ 10 ^ k * Binary64.unit := by
    exact_mod_cast whole
  generalize (Binary64.unit : ℚ) = unit at one least bound
  generalize (Binary64.quantaLimit : ℚ) = limit at high bound
  by_contra large
  have power : (10 : ℚ) ^ (k : ℤ) ≤ 10 ^ (d.exponent + length d.digits - 1) :=
    zpow_le_zpow_right₀ (by norm_num) (by omega)
  rw [zpow_natCast] at power
  have : 10 ^ k * unit ≤ d.quanta := (mul_le_mul_of_nonneg_right power one.le).trans least
  linarith

/-- A decimal of half a quantum or less is rounded to zero. -/
theorem round_eq_zero {d : Decimal} (small : d.quanta ≤ 1 / 2) :
    d.round = Binary64.zero d.negative := by
  obtain ⟨p, q, hq, value, rounded⟩ := round_eq_ofQuotient d
  have pos : (0 : ℚ) < q := by exact_mod_cast hq
  rw [← value, div_le_div_iff₀ pos (by norm_num), one_mul] at small
  rw [rounded]
  apply Binary64.ofQuotient_eq_zero d.negative hq
  rw [Nat.mul_comm]
  exact_mod_cast small

/-- A decimal at the limit of the finite numbers or beyond is rounded to infinity. -/
theorem round_eq_infinity {d : Decimal} (large : (Binary64.quantaLimit : ℚ) ≤ d.quanta) :
    d.round = .infinity d.negative := by
  obtain ⟨p, q, hq, value, rounded⟩ := round_eq_ofQuotient d
  have pos : (0 : ℚ) < q := by exact_mod_cast hq
  rw [← value, le_div_iff₀ pos] at large
  rw [rounded]
  exact Binary64.ofQuotient_eq_infinity_of_le d.negative hq (by exact_mod_cast large)

/-- A decimal without digits is worth nothing, whatever its exponent is. -/
theorem quanta_eq_zero {d : Decimal} (h : d.digits = 0) : d.quanta = 0 := by
  unfold quanta
  rw [h, Nat.cast_zero, zero_mul, zero_mul]

/-- Every decimal is read as the number nearest to its exact value. -/
theorem toBinary64_eq_round (d : Decimal) : d.toBinary64 = d.round := by
  by_cases none : d.digits = 0
  · unfold toBinary64
    rw [if_pos (Or.inl none), round_eq_zero]
    rw [quanta_eq_zero none]
    norm_num
  have pos : 0 < d.digits := Nat.pos_of_ne_zero none
  unfold toBinary64
  dsimp only
  split
  · rename_i small
    rw [round_eq_zero]
    by_contra least
    have := le_magnitude pos (not_le.1 least)
    omega
  · split
    · rename_i large
      rw [round_eq_infinity]
      by_contra most
      have limit : (0 : ℚ) < Binary64.quantaLimit := by exact_mod_cast Binary64.quantaLimit_pos
      have := magnitude_le pos (by linarith [not_le.1 most])
      omega
    · rfl

/-- What a decimal is read as depends on its exact value alone. -/
theorem toBinary64_eq_ofQuotient {d : Decimal} {p q : Nat} (hq : 0 < q)
    (value : d.quanta = (p : ℚ) / q) : d.toBinary64 = Binary64.ofQuotient d.negative p q := by
  obtain ⟨p', q', hq', value', rounded⟩ := round_eq_ofQuotient d
  rw [toBinary64_eq_round, rounded]
  apply Binary64.ofQuotient_congr d.negative hq' hq
  have pos : (q : ℚ) ≠ 0 := by exact_mod_cast hq.ne'
  have pos' : (q' : ℚ) ≠ 0 := by exact_mod_cast hq'.ne'
  rw [value, div_eq_div_iff pos' pos] at value'
  exact_mod_cast value'

/-- A decimal of a whole value is read as the number nearest to it. -/
theorem toBinary64_eq_ofNat {d : Decimal} {n : Nat} (positive : d.negative = false)
    (value : d.quanta = (n : ℚ) * Binary64.unit) : d.toBinary64 = Binary64.ofNat n := by
  rw [toBinary64_eq_ofQuotient Nat.one_pos (p := n * Binary64.unit), positive]
  · rfl
  · rw [value]
    push_cast
    rw [div_one]

/-- A decimal whose value is a number is read as that number. -/
theorem toBinary64_eq_finite {d : Decimal} {m : Magnitude} (value : d.quanta = m.quanta) :
    d.toBinary64 = .finite d.negative m := by
  rw [toBinary64_eq_ofQuotient Nat.one_pos (p := m.quanta)]
  · exact Binary64.ofQuotient_of_fits d.negative m.fits m.bounded
  · rw [value, Nat.cast_one, div_one]

/-- A decimal near to a finite number is read as that number. -/
theorem toBinary64_eq_of_near {d : Decimal} (m : Magnitude)
    (near : |d.quanta - m.quanta| * 2 ^ 54 < m.quanta) :
    d.toBinary64 = .finite d.negative m := by
  obtain ⟨p, q, hq, value, rounded⟩ := round_eq_ofQuotient d
  rw [toBinary64_eq_round, rounded]
  rw [← value] at near
  exact Binary64.ofQuotient_eq_of_near d.negative m hq near

end Decimal

end AccessLatency
