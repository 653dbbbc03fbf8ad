import AccessLatency.Proofs.Binary64.Monotone
import Mathlib.Tactic

/-!
# Results that are numbers

An operation whose exact result is a number gives that number. `mul_of_exact` and `div_of_exact` say
so with the number named, so that what is left to show is an equation of natural numbers; the whole
numbers up to `2 ^ 53` are numbers, `exists_ofNat`.

A product of two such whole numbers need not be a number. It is rounded as the whole number that it
is, `mul_ofNat`, and the word that it is rounded up to is the largest one at most,
`toNat_ceilWord_ofNat`.
-/

set_option autoImplicit false

namespace AccessLatency

namespace Binary64

variable {a b c : Magnitude}

/-- A product that is a number is not rounded. -/
theorem mul_of_exact (s t : Bool) (exact : a.quanta * b.quanta = c.quanta * unit) :
    mul (.finite s a) (.finite t b) = .finite (s ^^ t) c := by
  have rounded : roundQuotient (c.quanta * unit) unit = c.quanta :=
    roundQuotient_of_fits unit_pos c.fits
  unfold mul
  dsimp only
  rw [exact]
  exact ofQuotient_eq_finite (s ^^ t) rounded c.fits c.bounded

/-- A quotient that is a number is not rounded. -/
theorem div_of_exact (s t : Bool) (divisor : b.quanta ≠ 0)
    (exact : a.quanta * unit = c.quanta * b.quanta) :
    div (.finite s a) (.finite t b) = .finite (s ^^ t) c := by
  have rounded : roundQuotient (c.quanta * b.quanta) b.quanta = c.quanta :=
    roundQuotient_of_fits (Nat.pos_of_ne_zero divisor) c.fits
  unfold div
  dsimp only
  rw [if_neg divisor, exact]
  exact ofQuotient_eq_finite (s ^^ t) rounded c.fits c.bounded

/-! ## Whole numbers -/

variable {m n : Nat}

/-- A whole number up to `2 ^ 53` is a finite number of just that value. -/
theorem exists_ofNat (h : n ≤ 2 ^ 53) :
    ∃ a : Magnitude, ofNat n = .finite false a ∧ a.quanta = n * unit := by
  have whole : nearestWhole n = n := nearestWhole_of_le h
  have found := exists_ofNat_of_nearestWhole_le (whole.trans_le h) (by decide)
  rwa [whole] at found

/-- A word up to `2 ^ 53` is a finite number of just its value. -/
theorem exists_ofWord_of_le {w : UInt64} (h : w.toNat ≤ 2 ^ 53) :
    ∃ a : Magnitude, ofWord w = .finite false a ∧ a.quanta = w.toNat * unit :=
  exists_ofNat h

/-- Half of such a whole number is a number, too. -/
theorem exists_magnitude_half (h : n ≤ 2 ^ 53) : ∃ a : Magnitude, a.quanta * 2 = n * unit := by
  obtain ⟨a, quanta⟩ := exists_magnitude_of_le h
  exact exists_magnitude_div (k := 1) quanta (by omega)

/-- A product of whole numbers is rounded once, after they are multiplied. -/
theorem mul_ofNat (hm : m ≤ 2 ^ 53) (hn : n ≤ 2 ^ 53) :
    mul (ofNat m) (ofNat n) = ofNat (m * n) := by
  obtain ⟨a, first, quanta⟩ := exists_ofNat hm
  obtain ⟨b, second, quanta'⟩ := exists_ofNat hn
  have same : m * unit * (n * unit) * 1 = m * n * unit * unit := by ring
  rw [first, second]
  unfold mul
  dsimp only
  rw [quanta, quanta']
  exact ofQuotient_congr _ unit_pos Nat.one_pos same

/-- The value of a whole number is the nearest one that fits, up to the limit of the finite
numbers. -/
theorem value?_ofNat (n : Nat) :
    (ofNat n).value? = some ((min (nearestWhole n * unit) quantaLimit : Nat) : Int) := by
  unfold ofNat
  rw [value?_ofQuotient]
  unfold roundedQuotient
  rw [roundQuotient_mul_unit]
  rfl

/-- The word that the number nearest to a whole number is rounded up to: the nearest whole number
itself, if it is a word. -/
theorem toNat_ceilWord_ofNat (n : Nat) :
    (ofNat n).ceilWord.toNat = min (nearestWhole n) wordMax := by
  have one := unit_pos
  rw [toNat_ceilWord (value?_ofNat n), Int.toNat_natCast]
  generalize nearestWhole n = whole
  have up : (whole * unit + (unit - 1)) / unit = whole := by
    rw [Nat.add_comm, Nat.add_mul_div_right _ _ one, Nat.div_eq_of_lt (by omega), Nat.zero_add]
  rcases Nat.le_total (whole * unit) quantaLimit with finite | infinite
  · rw [Nat.min_eq_left finite, up]
  · have large : wordMax ≤ whole := up ▸ wordMax_le_roundUp infinite
    rw [Nat.min_eq_right infinite, Nat.min_eq_right (wordMax_le_roundUp le_rfl),
      Nat.min_eq_right large]

end Binary64

end AccessLatency
