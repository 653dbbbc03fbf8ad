import AccessLatency.Proofs.Binary64.Order
import AccessLatency.Proofs.Binary64.Scaling
import Mathlib.Tactic

/-!
# Rounding keeps the order

Of two quotients with one divisor the larger is rounded to no less than the smaller. Where the gaps
around both are the same, that is so because it is so of whole numbers of gaps,
`roundHalfEven_mono`; where they are not, there is a power of two between the quotients, and rounding
leads neither of them past it. So a product of numbers that are not negative is no less for larger
ones, `mul_mono`, a larger word gives no smaller number, `ofWord_mono`, and a larger number is
rounded up to no smaller word, `ceilWord_mono`.
-/

set_option autoImplicit false

namespace AccessLatency

namespace Binary64

/-- A larger number, divided by the same one, is not rounded to less. -/
theorem roundHalfEven_mono {p q : Nat} (d : Nat) (h : p ≤ q) :
    roundHalfEven p d ≤ roundHalfEven q d := by
  rcases Nat.lt_or_eq_of_le (Nat.div_le_div_right (c := d) h) with less | same
  · calc roundHalfEven p d ≤ p / d + 1 := roundHalfEven_le p d
      _ ≤ q / d := less
      _ ≤ roundHalfEven q d := le_roundHalfEven q d
  · have rest : p % d ≤ q % d := by
      have splitP := Nat.div_add_mod p d
      have splitQ := Nat.div_add_mod q d
      rw [same] at splitP
      omega
    unfold roundHalfEven
    dsimp only
    rw [same]
    split_ifs <;> omega

/-- A larger number, divided by the same one, is not rounded to fewer quanta, also where the gap is
wider. -/
theorem roundQuotient_mono {p q d : Nat} (hd : 0 < d) (h : p ≤ q) :
    roundQuotient p d ≤ roundQuotient q d := by
  have floors : p / d ≤ q / d := Nat.div_le_div_right h
  rcases Nat.lt_or_eq_of_le (gapExponent_mono floors) with wider | same
  · -- The least number with the wider gaps is between the quotients.
    have fits : Fits (2 ^ 52 * 2 ^ gapExponent (q / d)) := fits_mul_pow le_rfl (by decide)
    have below : p ≤ 2 ^ 52 * 2 ^ gapExponent (q / d) * d := by
      have top : p / d < 2 ^ 52 * 2 ^ gapExponent (q / d) := by
        calc p / d < 2 ^ 53 * 2 ^ gapExponent (p / d) := lt_gaps (p / d)
          _ = 2 ^ 52 * 2 ^ (gapExponent (p / d) + 1) := by rw [Nat.pow_succ]; omega
          _ ≤ 2 ^ 52 * 2 ^ gapExponent (q / d) :=
            Nat.mul_le_mul_left _ (Nat.pow_le_pow_right Nat.two_pos wider)
      exact ((Nat.div_lt_iff_lt_mul hd).1 top).le
    have above : 2 ^ 52 * 2 ^ gapExponent (q / d) * d ≤ q :=
      (Nat.le_div_iff_mul_le hd).1 (gaps_le (by omega))
    exact (roundQuotient_le hd fits below).trans (le_roundQuotient hd fits above)
  · unfold roundQuotient
    dsimp only
    rw [same]
    exact Nat.mul_le_mul_right _ (roundHalfEven_mono _ h)

/-- Nor does it become less where what is no longer finite is at the limit. -/
theorem roundedQuotient_mono {p q d : Nat} (hd : 0 < d) (h : p ≤ q) :
    roundedQuotient p d ≤ roundedQuotient q d :=
  min_le_min_right _ (roundQuotient_mono hd h)

/-- A larger whole number is not rounded to a smaller one. -/
theorem nearestWhole_mono {m n : Nat} (h : m ≤ n) : nearestWhole m ≤ nearestWhole n :=
  roundQuotient_mono Nat.one_pos h

/-! ## Products -/

/-- A product of numbers that are not negative is no less for larger ones. -/
theorem mul_mono {a b f g : Magnitude} (values : a.quanta ≤ b.quanta)
    (factors : f.quanta ≤ g.quanta) :
    le (mul (.finite false a) (.finite false f)) (mul (.finite false b) (.finite false g)) =
      true := by
  have products := roundedQuotient_mono unit_pos (Nat.mul_le_mul values factors)
  refine le_iff.2 ⟨roundedQuotient (a.quanta * f.quanta) unit,
    roundedQuotient (b.quanta * g.quanta) unit, value?_mul false a f, value?_mul false b g, ?_⟩
  exact_mod_cast products

/-! ## Words -/

/-- Every word is a finite number, worth the whole number nearest to it. -/
theorem exists_ofWord (w : UInt64) :
    ∃ m : Magnitude, ofWord w = .finite false m ∧ m.quanta = nearestWhole w.toNat * unit := by
  have most : nearestWhole w.toNat ≤ 2 ^ 64 :=
    nearestWhole_le (fits_two_pow 64) (UInt64.toNat_lt w).le
  exact exists_ofNat_of_nearestWhole_le most (by decide)

/-- A larger word is nearest to no smaller number. -/
theorem ofWord_mono {v w : UInt64} (h : v ≤ w) :
    ∃ a b : Magnitude, ofWord v = .finite false a ∧ ofWord w = .finite false b ∧
      a.quanta ≤ b.quanta := by
  obtain ⟨a, first, quanta⟩ := exists_ofWord v
  obtain ⟨b, second, quanta'⟩ := exists_ofWord w
  refine ⟨a, b, first, second, ?_⟩
  rw [quanta, quanta']
  exact Nat.mul_le_mul_right unit (nearestWhole_mono (UInt64.le_iff_toNat_le.1 h))

/-- What is beyond all numbers is rounded up to no less than the largest word. -/
theorem wordMax_le_roundUp {q : Nat} (h : quantaLimit ≤ q) : wordMax ≤ (q + (unit - 1)) / unit := by
  rw [Nat.le_div_iff_mul_le unit_pos]
  have limit := mul_unit_lt_quantaLimit (n := wordMax) (k := 64) (by decide) (by decide)
  omega

/-- The word that a number is rounded up to, by the value of the number. -/
theorem toNat_ceilWord {v : Binary64} {q : Int} (h : v.value? = some q) :
    v.ceilWord.toNat = min ((q.toNat + (unit - 1)) / unit) wordMax := by
  have word (n : Nat) : (UInt64.ofNat (min n wordMax)).toNat = min n wordMax := by
    have top : min n wordMax < 2 ^ 64 := (Nat.min_le_right _ _).trans_lt (by decide)
    exact UInt64.toNat_ofNat_of_lt top
  have none : (0 + (unit - 1)) / unit = 0 := Nat.div_eq_of_lt (by have := unit_pos; omega)
  cases v with
  | nan s p => cases h
  | infinity s =>
    obtain rfl := Option.some.inj h
    cases s with
    | true =>
      have negative : (-(quantaLimit : Int)).toNat = 0 := by omega
      simp only [if_true]
      rw [negative, none]
      rfl
    | false =>
      simp only [Bool.false_eq_true, if_false]
      rw [Int.toNat_natCast, Nat.min_eq_right (wordMax_le_roundUp le_rfl)]
      rfl
  | finite s m =>
    obtain rfl := Option.some.inj h
    cases s with
    | true =>
      have negative : (signedQuanta true m).toNat = 0 := by simp [signedQuanta]
      rw [negative, none]
      rfl
    | false => exact word _

/-- A larger number is rounded up to no smaller word. -/
theorem ceilWord_mono {a b : Binary64} (h : le a b = true) : a.ceilWord ≤ b.ceilWord := by
  obtain ⟨p, q, hp, hq, less⟩ := le_iff.1 h
  rw [UInt64.le_iff_toNat_le, toNat_ceilWord hp, toNat_ceilWord hq]
  have quanta : p.toNat + (unit - 1) ≤ q.toNat + (unit - 1) := by omega
  exact min_le_min_right _ (Nat.div_le_div_right quanta)

end Binary64

end AccessLatency
