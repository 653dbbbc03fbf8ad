import AccessLatency.Binary64.Arithmetic
import AccessLatency.Proofs.Binary64.Rounding
import Mathlib.Tactic

/-!
# Bounds on magnitudes

A positive finite number is `Within` two powers of two of quanta if its magnitude lies between them.
Products and quotients of such numbers are within the powers that one expects, since powers of two
are numbers themselves and rounding keeps the order. So a computation whose bounds stay inside the
finite numbers neither overflows nor loses its value to zero.

A finite number of either sign, or zero, is `AtMost` a power of two of quanta if its magnitude is no
larger. That bound carries over to sums, too, and keeps a computation finite.
-/

set_option autoImplicit false

namespace AccessLatency

namespace Binary64

/-- A positive finite number with a magnitude between two powers of two of quanta. -/
def Within (lo hi : Nat) (v : Binary64) : Prop :=
  ∃ m : Magnitude, v = .finite false m ∧ 2 ^ lo ≤ m.quanta ∧ m.quanta ≤ 2 ^ hi

/-- Every power of two fits. -/
theorem fits_two_pow (k : Nat) : Fits (2 ^ k) := by
  by_cases small : k < 53
  · exact fits_of_lt (Nat.pow_lt_pow_right Nat.one_lt_two small)
  · have split : 2 ^ k = 2 ^ 52 * 2 ^ (k - 52) := by
      rw [← Nat.pow_add]
      congr 1
      omega
    rw [split]
    exact fits_mul_pow (le_refl _) (by decide)

/-- The powers of two of quanta up to the limit are finite. -/
theorem two_pow_lt_quantaLimit {k : Nat} (h : k < 2098) : 2 ^ k < quantaLimit := by
  unfold quantaLimit
  generalize 2098 = n at h ⊢
  exact Nat.pow_lt_pow_right Nat.one_lt_two h

/-- The highest bit of a finite number is below that of the limit. -/
theorem log2_quanta_lt {m : Magnitude} (h : m.quanta ≠ 0) : m.quanta.log2 < 2098 := by
  have bounded := m.bounded
  unfold quantaLimit at bounded
  generalize 2098 = n at bounded ⊢
  exact (Nat.log2_lt h).2 bounded

/-- One is a power of two of quanta; which one is kept apart, lest it is computed. -/
theorem unit_eq_two_pow : ∃ e, e = 1074 ∧ unit = 2 ^ e := by
  unfold unit
  generalize 1074 = e
  exact ⟨e, rfl, rfl⟩

variable {lo hi k l m n : Nat} {a b v : Binary64}

/-- A number within two powers of two is positive. -/
theorem Within.zero_lt (h : Within lo hi v) : lt (zero false) v = true := by
  obtain ⟨m, rfl, least, -⟩ := h
  have pos : 0 < m.quanta := lt_of_lt_of_le (Nat.two_pow_pos lo) least
  have less : (0 : Int) < m.quanta := by exact_mod_cast pos
  exact decide_eq_true less

/-- A quotient between two powers of two is rounded to a number between them. -/
theorem within_ofQuotient {p d : Nat} (hd : 0 < d) (least : 2 ^ lo * d ≤ p)
    (most : p ≤ 2 ^ hi * d) (bound : hi < 2098) : Within lo hi (ofQuotient false p d) := by
  have above := le_roundQuotient hd (fits_two_pow lo) least
  have below := roundQuotient_le hd (fits_two_pow hi) most
  have finite := lt_of_le_of_lt below (two_pow_lt_quantaLimit bound)
  exact ⟨_, ofQuotient_eq_finite false rfl (fits_roundQuotient p d) finite, above, below⟩

/-- A word that is not zero is between one and `2 ^ 64`. -/
theorem within_ofWord {w : UInt64} (h : w ≠ 0) : Within 1074 1138 (ofWord w) := by
  have pos : 1 ≤ w.toNat := by
    rw [Nat.one_le_iff_ne_zero, ne_eq, ← UInt64.toNat_zero, UInt64.toNat_inj]
    exact h
  have top : w.toNat ≤ 2 ^ 64 := (UInt64.toNat_lt w).le
  obtain ⟨e, he, one⟩ := unit_eq_two_pow
  rw [← he, show 1138 = 64 + e by omega]
  unfold ofWord ofNat
  apply within_ofQuotient Nat.one_pos
  · rw [Nat.mul_one, ← one]
    exact Nat.le_mul_of_pos_left unit pos
  · rw [Nat.mul_one, Nat.pow_add, ← one]
    exact Nat.mul_le_mul_right unit top
  · omega

/-- The exponents of the bounds of a product are sums, less that of one, which is counted twice. -/
theorem Within.mul (ha : Within k l a) (hb : Within m n b) (least : lo + 1074 ≤ k + m)
    (most : l + n ≤ hi + 1074) (bound : hi < 2098) : Within lo hi (mul a b) := by
  obtain ⟨x, rfl, xLeast, xMost⟩ := ha
  obtain ⟨y, rfl, yLeast, yMost⟩ := hb
  obtain ⟨e, he, one⟩ := unit_eq_two_pow
  rw [← he] at least most
  refine within_ofQuotient unit_pos ?_ ?_ bound
  · calc 2 ^ lo * unit = 2 ^ (lo + e) := by rw [one, Nat.pow_add]
      _ ≤ 2 ^ (k + m) := Nat.pow_le_pow_right Nat.two_pos least
      _ = 2 ^ k * 2 ^ m := Nat.pow_add 2 k m
      _ ≤ x.quanta * y.quanta := Nat.mul_le_mul xLeast yLeast
  · calc x.quanta * y.quanta ≤ 2 ^ l * 2 ^ n := Nat.mul_le_mul xMost yMost
      _ = 2 ^ (l + n) := (Nat.pow_add 2 l n).symm
      _ ≤ 2 ^ (hi + e) := Nat.pow_le_pow_right Nat.two_pos most
      _ = 2 ^ hi * unit := by rw [one, Nat.pow_add]

/-- The exponents of the bounds of a quotient are differences, with that of one added, which falls
out. -/
theorem Within.div (ha : Within k l a) (hb : Within m n b) (least : lo + n ≤ k + 1074)
    (most : l + 1074 ≤ hi + m) (bound : hi < 2098) : Within lo hi (div a b) := by
  obtain ⟨x, rfl, xLeast, xMost⟩ := ha
  obtain ⟨y, rfl, yLeast, yMost⟩ := hb
  obtain ⟨e, he, one⟩ := unit_eq_two_pow
  rw [← he] at least most
  have pos : 0 < y.quanta := lt_of_lt_of_le (Nat.two_pow_pos m) yLeast
  unfold div
  dsimp only
  rw [if_neg pos.ne']
  refine within_ofQuotient pos ?_ ?_ bound
  · calc 2 ^ lo * y.quanta ≤ 2 ^ lo * 2 ^ n := Nat.mul_le_mul_left _ yMost
      _ = 2 ^ (lo + n) := (Nat.pow_add 2 lo n).symm
      _ ≤ 2 ^ (k + e) := Nat.pow_le_pow_right Nat.two_pos least
      _ = 2 ^ k * unit := by rw [one, Nat.pow_add]
      _ ≤ x.quanta * unit := Nat.mul_le_mul_right unit xLeast
  · calc x.quanta * unit ≤ 2 ^ l * unit := Nat.mul_le_mul_right unit xMost
      _ = 2 ^ (l + e) := by rw [one, Nat.pow_add]
      _ ≤ 2 ^ (hi + m) := Nat.pow_le_pow_right Nat.two_pos most
      _ = 2 ^ hi * 2 ^ m := Nat.pow_add 2 hi m
      _ ≤ 2 ^ hi * y.quanta := Nat.mul_le_mul_left _ yLeast

/-- Wider bounds hold, too. -/
theorem Within.mono (h : Within k l v) (least : lo ≤ k) (most : l ≤ hi) : Within lo hi v := by
  obtain ⟨m, rfl, above, below⟩ := h
  exact ⟨m, rfl, (Nat.pow_le_pow_right Nat.two_pos least).trans above,
    below.trans (Nat.pow_le_pow_right Nat.two_pos most)⟩

/-- A finite number with a magnitude of at most a power of two of quanta. -/
def AtMost (hi : Nat) (v : Binary64) : Prop :=
  ∃ s, ∃ m : Magnitude, v = .finite s m ∧ m.quanta ≤ 2 ^ hi

/-- A number that is at most a power of two is finite. -/
theorem AtMost.isFinite (h : AtMost hi v) : v.isFinite = true := by
  obtain ⟨s, m, rfl, -⟩ := h
  rfl

/-- A number within two powers of two is at most the larger one. -/
theorem Within.atMost (h : Within lo hi v) : AtMost hi v := by
  obtain ⟨m, rfl, -, most⟩ := h
  exact ⟨false, m, rfl, most⟩

/-- A larger bound holds, too. -/
theorem AtMost.mono (h : AtMost k v) (most : k ≤ hi) : AtMost hi v := by
  obtain ⟨s, m, rfl, below⟩ := h
  exact ⟨s, m, rfl, below.trans (Nat.pow_le_pow_right Nat.two_pos most)⟩

/-- A quotient of at most a power of two is rounded to at most that. -/
theorem atMost_ofQuotient {p d : Nat} (negative : Bool) (hd : 0 < d) (most : p ≤ 2 ^ hi * d)
    (bound : hi < 2098) : AtMost hi (ofQuotient negative p d) := by
  have below := roundQuotient_le hd (fits_two_pow hi) most
  have finite := lt_of_le_of_lt below (two_pow_lt_quantaLimit bound)
  exact ⟨negative, _, ofQuotient_eq_finite negative rfl (fits_roundQuotient p d) finite, below⟩

/-- A word is at most `2 ^ 64`, which is `2 ^ 1138` quanta. -/
theorem atMost_ofWord (w : UInt64) : AtMost 1138 (ofWord w) := by
  obtain ⟨e, he, one⟩ := unit_eq_two_pow
  rw [show 1138 = 64 + e by omega]
  unfold ofWord ofNat
  apply atMost_ofQuotient false Nat.one_pos
  · rw [Nat.mul_one, Nat.pow_add, ← one]
    exact Nat.mul_le_mul_right unit (UInt64.toNat_lt w).le
  · omega

/-- A sum is at most the doubled bound of its terms. -/
theorem AtMost.add (ha : AtMost k a) (hb : AtMost k b) (bound : k + 1 < 2098) :
    AtMost (k + 1) (add a b) := by
  obtain ⟨s, x, rfl, xMost⟩ := ha
  obtain ⟨t, y, rfl, yMost⟩ := hb
  have sum : (signedQuanta s x + signedQuanta t y).natAbs ≤ 2 ^ (k + 1) * 1 := by
    have double : 2 ^ (k + 1) = 2 ^ k + 2 ^ k := by rw [Nat.pow_succ]; omega
    rw [Nat.mul_one, double]
    cases s <;> cases t <;>
      simp only [signedQuanta, if_true, Bool.false_eq_true, if_false] <;> omega
  unfold Binary64.add ofQuanta
  dsimp only
  split
  · exact ⟨_, _, rfl, Nat.zero_le _⟩
  · exact atMost_ofQuotient _ Nat.one_pos sum bound

/-- A difference is at most the doubled bound of its terms. -/
theorem AtMost.sub (ha : AtMost k a) (hb : AtMost k b) (bound : k + 1 < 2098) :
    AtMost (k + 1) (sub a b) := by
  obtain ⟨s, x, rfl, xMost⟩ := ha
  obtain ⟨t, y, rfl, yMost⟩ := hb
  exact AtMost.add ⟨s, x, rfl, xMost⟩ ⟨!t, y, rfl, yMost⟩ bound

/-- The exponent of the bound of a product is a sum, less that of one. -/
theorem AtMost.mul (ha : AtMost k a) (hb : AtMost m b) (most : k + m ≤ hi + 1074)
    (bound : hi < 2098) : AtMost hi (mul a b) := by
  obtain ⟨s, x, rfl, xMost⟩ := ha
  obtain ⟨t, y, rfl, yMost⟩ := hb
  obtain ⟨e, he, one⟩ := unit_eq_two_pow
  rw [← he] at most
  refine atMost_ofQuotient _ unit_pos ?_ bound
  calc x.quanta * y.quanta ≤ 2 ^ k * 2 ^ m := Nat.mul_le_mul xMost yMost
    _ = 2 ^ (k + m) := (Nat.pow_add 2 k m).symm
    _ ≤ 2 ^ (hi + e) := Nat.pow_le_pow_right Nat.two_pos most
    _ = 2 ^ hi * unit := by rw [one, Nat.pow_add]

/-- The exponent of the bound of a quotient is that of the dividend less the lower one of the
divisor. -/
theorem AtMost.div (ha : AtMost k a) (hb : Within m n b) (most : k + 1074 ≤ hi + m)
    (bound : hi < 2098) : AtMost hi (div a b) := by
  obtain ⟨s, x, rfl, xMost⟩ := ha
  obtain ⟨y, rfl, yLeast, -⟩ := hb
  obtain ⟨e, he, one⟩ := unit_eq_two_pow
  rw [← he] at most
  have pos : 0 < y.quanta := lt_of_lt_of_le (Nat.two_pow_pos m) yLeast
  unfold Binary64.div
  dsimp only
  rw [if_neg pos.ne']
  refine atMost_ofQuotient _ pos ?_ bound
  calc x.quanta * unit ≤ 2 ^ k * unit := Nat.mul_le_mul_right unit xMost
    _ = 2 ^ (k + e) := by rw [one, Nat.pow_add]
    _ ≤ 2 ^ (hi + m) := Nat.pow_le_pow_right Nat.two_pos most
    _ = 2 ^ hi * 2 ^ m := Nat.pow_add 2 hi m
    _ ≤ 2 ^ hi * y.quanta := Nat.mul_le_mul_left _ yLeast

end Binary64

end AccessLatency
