import AccessLatency.Proofs.Binary64.Within
import Mathlib.Tactic

/-!
# Scaling by powers of two

A power of two as a factor changes only the place of the gaps, not the significand: a number of
quanta fits exactly if its product with a power of two does, `fits_mul_two_pow_iff`. So a product
with a power of two loses no digits, `mul_two_pow`; only the limit of the finite numbers can be
passed. And rounding a whole number is the same whether it is counted in quanta or in ones:
`nearestWhole` is the whole number that comes out.
-/

set_option autoImplicit false

namespace AccessLatency

namespace Binary64

/-! ## Significands -/

/-- A power of two as a factor moves the highest bit by its exponent. -/
theorem log2_mul_two_pow {n : Nat} (h : n ≠ 0) (k : Nat) : (n * 2 ^ k).log2 = n.log2 + k := by
  have power : 2 ^ k ≠ 0 := (Nat.two_pow_pos k).ne'
  rw [Nat.log2_eq_iff (Nat.mul_ne_zero h power)]
  constructor
  · rw [Nat.pow_add]
    exact Nat.mul_le_mul_right _ (pow_log2_le h)
  · rw [Nat.add_right_comm, Nat.pow_add]
    exact Nat.mul_lt_mul_of_pos_right (lt_pow_log2_succ n) (Nat.two_pow_pos k)

/-- The gap around a number of 53 bits or more moves with it. -/
theorem gapExponent_mul_two_pow {n : Nat} (h : 2 ^ 52 ≤ n) (k : Nat) :
    gapExponent (n * 2 ^ k) = gapExponent n + k := by
  have ne : n ≠ 0 := by omega
  have log : 52 ≤ n.log2 := (Nat.le_log2 ne).2 h
  unfold gapExponent
  rw [log2_mul_two_pow ne]
  omega

/-- A power of two as a factor does not change whether 53 bits are enough. -/
theorem fits_mul_two_pow_iff {n k : Nat} : Fits (n * 2 ^ k) ↔ Fits n := by
  by_cases small : n < 2 ^ 52
  · have inside : Fits n := fits_of_lt (by omega)
    refine ⟨fun _ => inside, fun _ => ?_⟩
    by_cases none : n = 0
    · rw [none, Nat.zero_mul]
      exact fits_of_lt (by decide)
    · have log : n.log2 < 52 := (Nat.log2_lt none).2 small
      unfold Fits gapExponent
      rw [log2_mul_two_pow none]
      apply Nat.mod_eq_zero_of_dvd
      exact Dvd.dvd.mul_left (Nat.pow_dvd_pow 2 (by omega)) n
  · have large : 2 ^ 52 ≤ n := not_lt.1 small
    unfold Fits
    rw [gapExponent_mul_two_pow large, Nat.pow_add, Nat.mul_mod_mul_right]
    have power := Nat.two_pow_pos k
    constructor
    · intro none
      exact (Nat.mul_eq_zero.1 none).resolve_right power.ne'
    · intro none
      rw [none, Nat.zero_mul]

/-! ## Whole numbers -/

/-- The whole number of at most 53 significant bits that is nearest to a whole number, ties going to
the even significand. -/
def nearestWhole (n : Nat) : Nat := roundQuotient n 1

/-- The nearest whole number fits 53 bits. -/
theorem fits_nearestWhole (n : Nat) : Fits (nearestWhole n) := fits_roundQuotient n 1

/-- A whole number that fits is the one nearest to it. -/
theorem nearestWhole_of_fits {n : Nat} (h : Fits n) : nearestWhole n = n := by
  have scaled := roundQuotient_of_fits Nat.one_pos h
  rwa [Nat.mul_one] at scaled

/-- A number of quanta that fits is a number, if it is finite. -/
theorem ofQuotient_of_fits {n : Nat} (negative : Bool) (fits : Fits n) (finite : n < quantaLimit) :
    ofQuotient negative n 1 = .finite negative ⟨n, fits, finite⟩ :=
  ofQuotient_eq_finite negative (nearestWhole_of_fits fits) fits finite

/-- Up to `2 ^ 53` every whole number is the one nearest to it. -/
theorem nearestWhole_of_le {n : Nat} (h : n ≤ 2 ^ 53) : nearestWhole n = n := by
  apply nearestWhole_of_fits
  rcases Nat.lt_or_eq_of_le h with less | rfl
  · exact fits_of_lt less
  · exact fits_two_pow 53

/-- A whole number of at least one that fits is rounded to at least it. -/
theorem le_nearestWhole {m n : Nat} (fits : Fits m) (h : m ≤ n) : m ≤ nearestWhole n :=
  le_roundQuotient Nat.one_pos fits (by rwa [Nat.mul_one])

/-- A whole number of at most one that fits is rounded to at most it. -/
theorem nearestWhole_le {m n : Nat} (fits : Fits m) (h : n ≤ m) : nearestWhole n ≤ m :=
  roundQuotient_le Nat.one_pos fits (by rwa [Nat.mul_one])

/-- From `2 ^ 64` on gaps are `2 ^ 12` wide, and a tie goes down to the power of two. -/
theorem nearestWhole_le_two_pow_iff {n : Nat} :
    nearestWhole n ≤ 2 ^ 64 ↔ n ≤ 2 ^ 64 + 2 ^ 11 := by
  rcases Nat.lt_or_ge n (2 ^ 64) with below | least
  · have most : nearestWhole n ≤ 2 ^ 64 := nearestWhole_le (fits_two_pow 64) below.le
    exact ⟨fun _ => by omega, fun _ => most⟩
  rcases Nat.lt_or_ge n (2 ^ 65) with below | beyond
  · have gap : gapExponent (n / 1) = 12 := by
      rw [Nat.div_one]
      exact gapExponent_eq (by omega) (by omega)
    have rounded : nearestWhole n = roundHalfEven n (2 ^ 12) * 2 ^ 12 := by
      unfold nearestWhole roundQuotient
      dsimp only
      rw [gap, Nat.one_mul]
    rw [rounded]
    unfold roundHalfEven
    dsimp only
    split
    · omega
    · split <;> omega
  · have above : 2 ^ 65 ≤ nearestWhole n := le_nearestWhole (fits_two_pow 65) beyond
    omega

/-- A whole number of any power of two of quanta is rounded as the whole number is. -/
theorem roundQuotient_mul_two_pow (n k : Nat) :
    roundQuotient (n * 2 ^ k) 1 = nearestWhole n * 2 ^ k := by
  by_cases small : n < 2 ^ 52
  · have fits : Fits n := fits_of_lt (by omega)
    rw [nearestWhole_of_fits fits]
    exact nearestWhole_of_fits (fits_mul_two_pow_iff.2 fits)
  · unfold nearestWhole roundQuotient
    dsimp only
    rw [Nat.div_one, Nat.div_one, gapExponent_mul_two_pow (not_lt.1 small), Nat.one_mul,
      Nat.one_mul, Nat.pow_add, roundHalfEven_mul_right _ _ (Nat.two_pow_pos k), Nat.mul_assoc]

/-- A whole number, counted in quanta, is rounded as it is counted in ones. -/
theorem roundQuotient_mul_unit (n : Nat) :
    roundQuotient (n * unit) 1 = nearestWhole n * unit := by
  obtain ⟨e, -, one⟩ := unit_eq_two_pow
  rw [one]
  exact roundQuotient_mul_two_pow n e

/-- A whole number fits exactly if its number of quanta does. -/
theorem fits_mul_unit_iff {n : Nat} : Fits (n * unit) ↔ Fits n := by
  obtain ⟨e, -, one⟩ := unit_eq_two_pow
  rw [one]
  exact fits_mul_two_pow_iff

/-- The double of a whole number is the nearest whole number of 53 bits, if that is finite. -/
theorem ofNat_eq_finite {n : Nat} (finite : nearestWhole n * unit < quantaLimit) :
    ofNat n =
      .finite false ⟨nearestWhole n * unit, fits_mul_unit_iff.2 (fits_nearestWhole n), finite⟩ :=
  ofQuotient_eq_finite false (roundQuotient_mul_unit n) _ finite

/-- A whole number whose nearest one is beyond the limit is infinite. -/
theorem ofNat_eq_infinity {n : Nat} (infinite : quantaLimit ≤ nearestWhole n * unit) :
    ofNat n = .infinity false :=
  ofQuotient_eq_infinity false (infinite.trans (roundQuotient_mul_unit n).ge)

/-! ## Products with powers of two -/

/-- The whole numbers up to a power of two below `2 ^ 1024` are finite. -/
theorem mul_unit_lt_quantaLimit {n k : Nat} (h : n ≤ 2 ^ k) (bound : k < 1024) :
    n * unit < quantaLimit := by
  obtain ⟨e, he, one⟩ := unit_eq_two_pow
  calc n * unit ≤ 2 ^ k * unit := Nat.mul_le_mul_right unit h
    _ = 2 ^ (k + e) := by rw [one, Nat.pow_add]
    _ < quantaLimit := two_pow_lt_quantaLimit (by omega)

/-- A whole number that is not too large is read as the whole number nearest to it. -/
theorem exists_ofNat_of_nearestWhole_le {n k : Nat} (most : nearestWhole n ≤ 2 ^ k)
    (bound : k < 1024) :
    ∃ m : Magnitude, ofNat n = .finite false m ∧ m.quanta = nearestWhole n * unit :=
  ⟨_, ofNat_eq_finite (mul_unit_lt_quantaLimit most bound), rfl⟩

/-- A power of two below `2 ^ 1024` is a finite number of just that value. -/
theorem ofNat_two_pow {k : Nat} (bound : k < 1024) :
    ∃ m : Magnitude, ofNat (2 ^ k) = .finite false m ∧ m.quanta = 2 ^ k * unit := by
  have whole : nearestWhole (2 ^ k) = 2 ^ k := nearestWhole_of_fits (fits_two_pow k)
  have found := exists_ofNat_of_nearestWhole_le whole.le bound
  rwa [whole] at found

/-- The whole numbers of 53 significant bits are numbers, as long as they are finite. -/
theorem exists_magnitude_of_fits {n k : Nat} (fits : Fits n) (h : n ≤ 2 ^ k) (bound : k < 1024) :
    ∃ m : Magnitude, m.quanta = n * unit :=
  ⟨⟨n * unit, fits_mul_unit_iff.2 fits, mul_unit_lt_quantaLimit h bound⟩, rfl⟩

/-- Up to `2 ^ 53` every whole number is a magnitude. -/
theorem exists_magnitude_of_le {n : Nat} (h : n ≤ 2 ^ 53) :
    ∃ m : Magnitude, m.quanta = n * unit :=
  exists_magnitude_of_fits (nearestWhole_of_le h ▸ fits_nearestWhole n) h (by decide)

/-- A whole number that is divided by a power of two is a number if the whole number is one. -/
theorem exists_magnitude_div {n k : Nat} {m : Magnitude} (value : m.quanta = n * unit)
    (bound : k ≤ 1074) : ∃ part : Magnitude, part.quanta * 2 ^ k = n * unit := by
  obtain ⟨e, he, one⟩ := unit_eq_two_pow
  have split : n * 2 ^ (e - k) * 2 ^ k = n * unit := by
    rw [one, Nat.mul_assoc, ← Nat.pow_add, Nat.sub_add_cancel (by omega)]
  have fits : Fits (n * 2 ^ (e - k)) := by
    have whole := m.fits
    rw [value, ← split] at whole
    exact fits_mul_two_pow_iff.1 whole
  have bounded : n * 2 ^ (e - k) < quantaLimit := by
    calc n * 2 ^ (e - k) ≤ n * 2 ^ (e - k) * 2 ^ k :=
          Nat.le_mul_of_pos_right _ (Nat.two_pow_pos k)
      _ = m.quanta := by rw [split, value]
      _ < quantaLimit := m.bounded
  exact ⟨⟨n * 2 ^ (e - k), fits, bounded⟩, split⟩

/-- The product with a power of two is the exact one, as long as it is finite. -/
theorem mul_two_pow (negative : Bool) (m : Magnitude) {k : Nat} (bound : k < 1024) :
    mul (.finite negative m) (ofNat (2 ^ k)) = ofQuotient negative (m.quanta * 2 ^ k) 1 := by
  obtain ⟨power, double, value⟩ := ofNat_two_pow bound
  rw [double]
  unfold mul
  dsimp only
  rw [Bool.xor_false, value]
  apply ofQuotient_congr negative unit_pos Nat.one_pos
  rw [Nat.mul_one, Nat.mul_assoc]

/-- Infinity times a power of two is infinite. -/
theorem infinity_mul_two_pow (negative : Bool) {k : Nat} (bound : k < 1024) :
    mul (.infinity negative) (ofNat (2 ^ k)) = .infinity negative := by
  obtain ⟨power, double, value⟩ := ofNat_two_pow bound
  have pos : power.quanta ≠ 0 := by
    rw [value]
    exact Nat.mul_ne_zero (Nat.two_pow_pos k).ne' unit_pos.ne'
  rw [double]
  unfold mul
  dsimp only
  rw [if_neg pos, Bool.xor_false]

end Binary64

end AccessLatency
