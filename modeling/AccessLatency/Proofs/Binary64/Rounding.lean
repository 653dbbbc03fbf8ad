import AccessLatency.Binary64.Basic
import Mathlib.Tactic

/-!
# What rounding gives

`roundQuotient` depends on the exact quotient alone, however the quotient is written. It keeps to
the side of every number of quanta that fits: what is at least such a number is rounded to at least
it, and what is at most such a number to at most it. And it finds a number of quanta that fits from
every quotient near to it: `roundQuotient_eq_of_near` asks for a distance below one part in
`2 ^ 54`, which is half of the narrowest gap there is on either side.
-/

set_option autoImplicit false

namespace AccessLatency

namespace Binary64

/-- One is not nothing. -/
theorem unit_pos : 0 < unit := by
  unfold unit
  generalize 1074 = e
  exact Nat.two_pow_pos e

/-! ## Rounding to whole numbers -/

/-- A quotient less than one half away from a whole number is rounded to it. -/
theorem roundHalfEven_eq_of_near {p d n : Nat} (above : 2 * (n * d) < 2 * p + d)
    (below : 2 * p < 2 * (n * d) + d) : roundHalfEven p d = n := by
  have hd : 0 < d := by omega
  have split := Nat.div_add_mod p d
  have rest := Nat.mod_lt p hd
  rw [Nat.mul_comm] at split
  have step : ∀ a b : Nat, a < b → a * d + d ≤ b * d := by
    intro a b h
    rw [← Nat.succ_mul]
    exact Nat.mul_le_mul_right d h
  unfold roundHalfEven
  dsimp only
  rcases Nat.lt_trichotomy (p / d) n with less | same | more
  · have near : p / d + 1 = n := by
      by_contra far
      have := step (p / d + 1) n (by omega)
      rw [Nat.add_one_mul (p / d) d] at this
      omega
    rw [← near, Nat.add_one_mul (p / d) d] at above below
    rw [if_neg (by omega), if_pos (by omega), near]
  · rw [← same] at above below
    rw [if_pos (by omega), same]
  · have := step n (p / d) more
    omega

/-- A quotient of at least a whole number is rounded to at least it. -/
theorem le_roundHalfEven_of_le {p d n : Nat} (hd : 0 < d) (h : n * d ≤ p) :
    n ≤ roundHalfEven p d :=
  ((Nat.le_div_iff_mul_le hd).2 h).trans (le_roundHalfEven p d)

/-- A quotient of at most a whole number is rounded to at most it. -/
theorem roundHalfEven_le_of_le {p d n : Nat} (hd : 0 < d) (h : p ≤ n * d) :
    roundHalfEven p d ≤ n := by
  have split := Nat.div_add_mod p d
  have below : p / d ≤ n := Nat.div_le_of_le_mul (by rwa [Nat.mul_comm])
  rcases Nat.lt_or_eq_of_le below with less | same
  · exact (roundHalfEven_le p d).trans less
  · rw [same, Nat.mul_comm] at split
    have none : p % d = 0 := by omega
    unfold roundHalfEven
    dsimp only
    rw [none, if_pos (by omega), same]

/-! ## Gaps -/

/-- The gap exponent around a number with a significand of 53 bits. -/
theorem gapExponent_eq {n k : Nat} (lo : 2 ^ 52 * 2 ^ k ≤ n) (hi : n < 2 ^ 53 * 2 ^ k) :
    gapExponent n = k := by
  have pos : 0 < 2 ^ k := Nat.two_pow_pos k
  have ne : n ≠ 0 := by omega
  rw [← Nat.pow_add] at lo hi
  have ge : 52 + k ≤ n.log2 := (Nat.le_log2 ne).2 lo
  have lt : n.log2 < 53 + k := (Nat.log2_lt ne).2 hi
  unfold gapExponent
  omega

/-- The gap around a larger number is no narrower. -/
theorem gapExponent_mono {m n : Nat} (h : m ≤ n) : gapExponent m ≤ gapExponent n := by
  have := Nat.log_mono_right (b := 2) h
  unfold gapExponent
  rw [Nat.log2_eq_log_two, Nat.log2_eq_log_two]
  omega

/-- A number is less than `2 ^ 53` of the gaps around it. -/
theorem lt_gaps (n : Nat) : n < 2 ^ 53 * 2 ^ gapExponent n := by
  rw [← Nat.pow_add]
  apply (lt_pow_log2_succ n).trans_le
  apply Nat.pow_le_pow_right (by omega)
  unfold gapExponent
  omega

/-- A number around which gaps are wider than one quantum is no less than `2 ^ 52` of them. -/
theorem gaps_le {n : Nat} (h : gapExponent n ≠ 0) : 2 ^ 52 * 2 ^ gapExponent n ≤ n := by
  have ne : n ≠ 0 := by
    rintro rfl
    exact h (by decide)
  have log : 52 + gapExponent n = n.log2 := by
    unfold gapExponent at h ⊢
    omega
  rw [← Nat.pow_add, log]
  exact pow_log2_le ne

/-- A number of quanta that fits is a whole number of the gaps around it. -/
theorem Fits.eq_mul {n : Nat} (h : Fits n) : n = n / 2 ^ gapExponent n * 2 ^ gapExponent n := by
  have split := Nat.div_add_mod n (2 ^ gapExponent n)
  rw [h, Nat.add_zero, Nat.mul_comm] at split
  exact split.symm

/-! ## Rounding to numbers of quanta that fit -/

/-- A quotient of at least a number of quanta that fits is rounded to at least it. -/
theorem le_roundQuotient {p d n : Nat} (hd : 0 < d) (fits : Fits n) (h : n * d ≤ p) :
    n ≤ roundQuotient p d := by
  have floor : n ≤ p / d := (Nat.le_div_iff_mul_le hd).2 h
  unfold roundQuotient
  dsimp only
  rcases Nat.lt_or_eq_of_le (gapExponent_mono floor) with wider | same
  · -- The gap around the quotient is wider, so `n` is below the least significand of that gap.
    have top := gaps_le (n := p / d) (by omega)
    have least : 2 ^ 52 ≤ roundHalfEven p (d * 2 ^ gapExponent (p / d)) := by
      apply le_roundHalfEven_of_le (Nat.mul_pos hd (Nat.two_pow_pos _))
      rw [Nat.mul_left_comm, Nat.mul_comm]
      exact (Nat.mul_le_mul_right d top).trans (Nat.div_mul_le_self p d)
    calc n ≤ 2 ^ 53 * 2 ^ gapExponent n := (lt_gaps n).le
      _ = 2 ^ 52 * 2 ^ (gapExponent n + 1) := by rw [Nat.pow_succ]; omega
      _ ≤ 2 ^ 52 * 2 ^ gapExponent (p / d) :=
        Nat.mul_le_mul_left _ (Nat.pow_le_pow_right (by omega) wider)
      _ ≤ _ := Nat.mul_le_mul_right _ least
  · rw [← same]
    calc n = n / 2 ^ gapExponent n * 2 ^ gapExponent n := fits.eq_mul
      _ ≤ _ := by
        apply Nat.mul_le_mul_right
        apply le_roundHalfEven_of_le (Nat.mul_pos hd (Nat.two_pow_pos _))
        rwa [Nat.mul_left_comm, Nat.mul_comm, ← fits.eq_mul]

/-- A quotient of at most a number of quanta that fits is rounded to at most it. -/
theorem roundQuotient_le {p d n : Nat} (hd : 0 < d) (fits : Fits n) (h : p ≤ n * d) :
    roundQuotient p d ≤ n := by
  have floor : p / d ≤ n := Nat.div_le_of_le_mul (by rwa [Nat.mul_comm])
  obtain ⟨c, whole⟩ : 2 ^ gapExponent (p / d) ∣ n :=
    (Nat.pow_dvd_pow 2 (gapExponent_mono floor)).trans (Nat.dvd_of_mod_eq_zero fits)
  unfold roundQuotient
  dsimp only
  generalize 2 ^ gapExponent (p / d) = gap at whole ⊢
  rcases Nat.eq_zero_or_pos gap with none | pos
  · rw [none, Nat.mul_zero]
    exact Nat.zero_le n
  · calc roundHalfEven p (d * gap) * gap ≤ c * gap := by
          apply Nat.mul_le_mul_right
          apply roundHalfEven_le_of_le (Nat.mul_pos hd pos)
          calc p ≤ n * d := h
            _ = c * (d * gap) := by rw [whole]; ring
      _ = n := by rw [whole, Nat.mul_comm]

/-- A number of quanta that fits is a significand of 53 bits, shifted; and if it is shifted at all,
all 53 bits are used. -/
theorem Fits.exists_significand {n : Nat} (h : Fits n) :
    ∃ m, n = m * 2 ^ gapExponent n ∧ m < 2 ^ 53 ∧ (gapExponent n ≠ 0 → 2 ^ 52 ≤ m) := by
  refine ⟨n / 2 ^ gapExponent n, h.eq_mul, ?_, ?_⟩
  · rw [Nat.div_lt_iff_lt_mul (Nat.two_pow_pos _)]
    exact lt_gaps n
  · intro wide
    rw [Nat.le_div_iff_mul_le (Nat.two_pow_pos _)]
    exact gaps_le wide

/-- A quotient less than half a gap away from a multiple of the gap around its floor is rounded to
this multiple. -/
theorem roundQuotient_eq_mul {p d m k : Nat} (exponent : gapExponent (p / d) = k)
    (above : 2 * (m * (d * 2 ^ k)) < 2 * p + d * 2 ^ k)
    (below : 2 * p < 2 * (m * (d * 2 ^ k)) + d * 2 ^ k) : roundQuotient p d = m * 2 ^ k := by
  unfold roundQuotient
  dsimp only
  rw [exponent, roundHalfEven_eq_of_near above below]

/-- Just below a power of two gaps are half as wide as from it on, and a quotient that is near to
the power of two is still rounded to it. -/
theorem roundQuotient_eq_two_pow {p d j : Nat} (hd : 0 < d)
    (above : 2 ^ 54 * (2 ^ 52 * (d * 2 ^ (j + 1))) < 2 ^ 54 * p + 2 ^ 52 * (d * 2 ^ (j + 1)))
    (under : p < 2 ^ 52 * (d * 2 ^ (j + 1))) : roundQuotient p d = 2 ^ 52 * 2 ^ (j + 1) := by
  obtain ⟨half, hhalf⟩ : ∃ half, half = d * 2 ^ j := ⟨_, rfl⟩
  have double : d * 2 ^ (j + 1) = 2 * half := by rw [hhalf, Nat.pow_succ]; ring
  rw [double] at above under
  have exponent : gapExponent (p / d) = j := by
    apply gapExponent_eq
    · rw [Nat.le_div_iff_mul_le hd]
      calc 2 ^ 52 * 2 ^ j * d = 2 ^ 52 * half := by rw [hhalf]; ring
        _ ≤ p := by omega
    · rw [Nat.div_lt_iff_lt_mul hd]
      calc p < 2 ^ 52 * (2 * half) := under
        _ = 2 ^ 53 * half := by omega
        _ = 2 ^ 53 * 2 ^ j * d := by rw [hhalf]; ring
  have rounded : roundQuotient p d = 2 ^ 53 * 2 ^ j := by
    apply roundQuotient_eq_mul exponent
    · rw [← hhalf]
      omega
    · rw [← hhalf]
      omega
  rw [rounded, Nat.pow_succ 2 j]
  ring

/-- A quotient that is less than one part in `2 ^ 54` away from a number of quanta that fits is
rounded to it. -/
theorem roundQuotient_eq_of_near {p d n : Nat} (fits : Fits n)
    (above : 2 ^ 54 * (n * d) < 2 ^ 54 * p + n * d)
    (below : 2 ^ 54 * p < 2 ^ 54 * (n * d) + n * d) : roundQuotient p d = n := by
  have hd : 0 < d := by
    rcases Nat.eq_zero_or_pos d with rfl | pos
    · omega
    · exact pos
  obtain ⟨m, whole, small, large⟩ := fits.exists_significand
  generalize gapExponent n = k at whole large
  have scaled : n * d = m * (d * 2 ^ k) := by rw [whole]; ring
  rw [scaled] at above below
  have top : m * (d * 2 ^ k) ≤ (2 ^ 53 - 1) * (d * 2 ^ k) :=
    Nat.mul_le_mul_right _ (by omega)
  have quotient_lt : p / d < 2 ^ 53 * 2 ^ k := by
    rw [Nat.div_lt_iff_lt_mul hd, Nat.mul_right_comm, Nat.mul_assoc]
    generalize d * 2 ^ k = gap at above below top ⊢
    omega
  by_cases inside : 2 ^ 52 * 2 ^ k ≤ p / d ∨ k = 0
  · have exponent : gapExponent (p / d) = k := by
      rcases inside with lo | rfl
      · exact gapExponent_eq lo quotient_lt
      · exact gapExponent_eq_zero (by omega)
    rw [whole]
    apply roundQuotient_eq_mul exponent
    · generalize d * 2 ^ k = gap at above below top ⊢
      omega
    · generalize d * 2 ^ k = gap at above below top ⊢
      omega
  · -- The quotient is just below `n`, which is then the power of two where gaps widen.
    obtain ⟨outside, wide⟩ := not_or.1 inside
    obtain ⟨j, rfl⟩ := Nat.exists_eq_succ_of_ne_zero wide
    have under : p < 2 ^ 52 * (d * 2 ^ (j + 1)) := by
      rw [not_le, Nat.div_lt_iff_lt_mul hd, Nat.mul_assoc, Nat.mul_comm _ d] at outside
      exact outside
    have least : m = 2 ^ 52 := by
      by_contra more
      have next : (2 ^ 52 + 1) * (d * 2 ^ (j + 1)) ≤ m * (d * 2 ^ (j + 1)) := by
        apply Nat.mul_le_mul_right
        have := large wide
        omega
      generalize d * 2 ^ (j + 1) = gap at above below top under next
      omega
    subst least
    rw [whole]
    exact roundQuotient_eq_two_pow hd above under

/-! ## Numbers from quotients -/

/-- A common factor of numerator and denominator does not change the rounded quotient. -/
theorem roundHalfEven_mul_right (p d : Nat) {c : Nat} (hc : 0 < c) :
    roundHalfEven (p * c) (d * c) = roundHalfEven p d := by
  unfold roundHalfEven
  dsimp only
  rw [Nat.mul_div_mul_right p d hc, Nat.mul_mod_mul_right]
  simp only [← Nat.mul_assoc, Nat.mul_lt_mul_right hc]

/-- A common factor of numerator and denominator does not change the number of quanta. -/
theorem roundQuotient_mul_right (p d : Nat) {c : Nat} (hc : 0 < c) :
    roundQuotient (p * c) (d * c) = roundQuotient p d := by
  unfold roundQuotient
  dsimp only
  rw [Nat.mul_div_mul_right p d hc, Nat.mul_right_comm d c, roundHalfEven_mul_right _ _ hc]

/-- Equal quotients are rounded to the same number, whatever their terms are. -/
theorem ofQuotient_congr (negative : Bool) {p d p' d' : Nat} (hd : 0 < d) (hd' : 0 < d')
    (same : p * d' = p' * d) : ofQuotient negative p d = ofQuotient negative p' d' := by
  have rounded : roundQuotient p d = roundQuotient p' d' := by
    rw [← roundQuotient_mul_right p d hd', same, Nat.mul_comm d d',
      roundQuotient_mul_right p' d' hd]
  unfold ofQuotient
  simp only [rounded]

/-- What is rounded to a number of quanta below the limit is the finite number of these quanta. -/
theorem ofQuotient_eq_finite (negative : Bool) {p d q : Nat} (rounded : roundQuotient p d = q)
    (fits : Fits q) (bounded : q < quantaLimit) :
    ofQuotient negative p d = .finite negative ⟨q, fits, bounded⟩ := by
  subst rounded
  exact dif_pos bounded

/-- What is rounded to the limit of the finite numbers or beyond is infinite. -/
theorem ofQuotient_eq_infinity (negative : Bool) {p d : Nat}
    (large : quantaLimit ≤ roundQuotient p d) : ofQuotient negative p d = .infinity negative :=
  dif_neg (not_lt.2 large)

end Binary64

end AccessLatency
