import AccessLatency.Proofs.Binary64.Order
import AccessLatency.Proofs.Binary64.ReadBack
import AccessLatency.Proofs.Binary64.Scaling
import Mathlib.Tactic

/-!
# Floating-point numbers as rational ones

A finite number is a rational one, its quanta divided by those in one: `rational?`. The whole
numbers among them are what digits are read as, rounded to the nearest, and they are turned into
words, cut off at the largest. `accepted_iff` says which numbers pass the tests for a word: since
the largest word is rounded up to `2 ^ 64` before it is compared with, so does that number.
-/

set_option autoImplicit false

namespace AccessLatency

namespace Binary64

/-- The rational number that a finite number is. -/
def rational? : Binary64 → Option ℚ
  | .nan _ _ => none
  | .infinity _ => none
  | .finite s m => some (signedQuanta s m / unit)

section Rational

variable {v : Binary64} {q : ℚ}

/-- A number is a rational one exactly if it is finite and has as many quanta as that number of
ones. -/
theorem rational?_eq_some_iff :
    v.rational? = some q ↔ ∃ s m, v = .finite s m ∧ (signedQuanta s m : ℚ) = q * unit := by
  have one : (unit : ℚ) ≠ 0 := by exact_mod_cast unit_pos.ne'
  constructor
  · intro h
    cases v with
    | nan s p => cases h
    | infinity s => cases h
    | finite s m => exact ⟨s, m, rfl, (div_eq_iff one).1 (Option.some.inj h)⟩
  · rintro ⟨s, m, rfl, value⟩
    exact congrArg some ((div_eq_iff one).2 value)

/-- What is a rational number is finite. -/
theorem isFinite_of_rational? (h : v.rational? = some q) : v.isFinite = true := by
  obtain ⟨s, m, rfl, -⟩ := rational?_eq_some_iff.1 h
  rfl

/-- A finite number has a natural number of quanta if it has no sign, or is zero. -/
theorem signedQuanta_eq_natCast_iff {s : Bool} {m : Magnitude} {n : ℕ} :
    signedQuanta s m = n ↔ m.quanta = n ∧ (s = true → n = 0) := by
  unfold signedQuanta
  cases s with
  | false => simp
  | true =>
    simp only [if_true, forall_true_left]
    omega

/-- The finite numbers that are natural ones; only zero may have its sign set. -/
theorem rational?_eq_natCast_iff {k : ℕ} :
    v.rational? = some (k : ℚ) ↔
      ∃ s m, v = .finite s m ∧ m.quanta = k * unit ∧ (s = true → k = 0) := by
  have one := unit_pos
  rw [rational?_eq_some_iff]
  generalize unit = u at one
  have none : k * u = 0 ↔ k = 0 := by rw [Nat.mul_eq_zero, or_iff_left one.ne']
  have whole (s : Bool) (m : Magnitude) :
      (signedQuanta s m : ℚ) = k * u ↔ m.quanta = k * u ∧ (s = true → k = 0) := by
    rw [← none, ← signedQuanta_eq_natCast_iff]
    exact_mod_cast Iff.rfl
  simp only [whole]

end Rational

/-! ## Digits -/

/-- Digits are read as the number nearest to what they write. -/
theorem ofChars?_digits {digits : List Char} (filled : digits ≠ [])
    (all : ∀ c ∈ digits, c.isDigit = true) :
    ofChars? digits = some (ofNat (Text.digitsValue digits)) := by
  obtain ⟨c, rest, rfl⟩ := List.exists_cons_of_ne_nil filled
  have read : ofChars? (c :: rest) = _ := ofChars?_signText false rest (all c List.mem_cons_self)
  rw [read, Decimal.ofUnsigned?_digits false filled all, Option.map_some,
    Decimal.toBinary64_eq_ofNat rfl]
  unfold Decimal.quanta
  dsimp only
  rw [zpow_zero, mul_one]

/-- A plus sign in front of digits changes nothing. -/
theorem ofChars?_plus {digits : List Char} (filled : digits ≠ [])
    (all : ∀ c ∈ digits, c.isDigit = true) : ofChars? ('+' :: digits) = ofChars? digits := by
  obtain ⟨c, rest, rfl⟩ := List.exists_cons_of_ne_nil filled
  have unsigned : takeSign (c :: rest) = (false, c :: rest) :=
    takeSign_signText false rest (all c List.mem_cons_self)
  have signed : takeSign ('+' :: c :: rest) = (false, c :: rest) := rfl
  unfold ofChars?
  rw [signed, unsigned]

/-- The number nearest to a word is a natural one, at most `2 ^ 64`. -/
theorem rational?_ofNat_of_lt {n : ℕ} (h : n < 2 ^ 64) :
    ∃ k : ℕ, k ≤ 2 ^ 64 ∧ (ofNat n).rational? = some (k : ℚ) := by
  have most : nearestWhole n ≤ 2 ^ 64 := nearestWhole_le (fits_two_pow 64) h.le
  have finite := mul_unit_lt_quantaLimit most (by decide)
  refine ⟨nearestWhole n, most, rational?_eq_natCast_iff.2 ⟨_, _, ofNat_eq_finite finite, rfl, ?_⟩⟩
  intro negative
  cases negative

/-! ## Words -/

/-- The largest word is rounded up to a power of two. -/
theorem exists_wordBound : ∃ bound : Magnitude,
    ofNat Text.wordBound = .finite false bound ∧ bound.quanta = 2 ^ 64 * unit := by
  have nearest : nearestWhole Text.wordBound = 2 ^ 64 := by decide +kernel
  have found := exists_ofNat_of_nearestWhole_le nearest.le (by decide)
  rwa [nearest] at found

/-- A natural number is turned into a word by cutting it off at the largest. -/
theorem toWord_of_rational? {v : Binary64} {k : ℕ} (h : v.rational? = some (k : ℚ)) :
    v.toWord = UInt64.ofNat (min k Text.wordBound) := by
  obtain ⟨s, m, rfl, value, sign⟩ := rational?_eq_natCast_iff.1 h
  cases s with
  | false =>
    show UInt64.ofNat (min (m.quanta / unit) wordMax) = _
    rw [value, Nat.mul_div_cancel _ unit_pos]
    rfl
  | true =>
    obtain rfl := sign rfl
    rfl

/-- The numbers that pass the tests for a word are the natural ones up to `2 ^ 64`. -/
theorem accepted_iff {v : Binary64} :
    (v.isFinite && le (zero false) v && v.isWhole && le v (ofNat Text.wordBound)) = true ↔
      ∃ k : ℕ, k ≤ 2 ^ 64 ∧ v.rational? = some (k : ℚ) := by
  obtain ⟨bound, double, most⟩ := exists_wordBound
  have one := unit_pos
  have top : value? (.finite false bound) = some ((2 ^ 64 * unit : ℕ) : ℤ) := by
    rw [value?_finite, signedQuanta_eq_natCast_iff.2 ⟨most, fun h => by cases h⟩]
  rw [double]
  simp only [Bool.and_eq_true, rational?_eq_natCast_iff]
  constructor
  · rintro ⟨⟨⟨finite, least⟩, whole⟩, small⟩
    obtain ⟨s, m, rfl⟩ := exists_finite finite
    obtain ⟨p, value, nonneg⟩ := zero_le_iff.1 least
    obtain ⟨n, rfl⟩ := Int.eq_ofNat_of_zero_le nonneg
    obtain ⟨quanta, sign⟩ := signedQuanta_eq_natCast_iff.1 (Option.some.inj value)
    obtain ⟨x, y, hx, hy, range⟩ := le_iff.1 small
    obtain rfl := Option.some.inj (value.symm.trans hx)
    obtain rfl := Option.some.inj (top.symm.trans hy)
    have divides : n % unit = 0 := by
      rw [← quanta]
      exact beq_iff_eq.1 whole
    have range : n ≤ 2 ^ 64 * unit := by exact_mod_cast range
    refine ⟨n / unit, Nat.div_le_of_le_mul (by rwa [Nat.mul_comm]), s, m, rfl, ?_, ?_⟩
    · rw [quanta, Nat.div_mul_cancel (Nat.dvd_of_mod_eq_zero divides)]
    · intro negative
      rw [sign negative, Nat.zero_div]
  · rintro ⟨k, range, s, m, rfl, quanta, sign⟩
    have value : value? (.finite s m) = some ((k * unit : ℕ) : ℤ) := by
      rw [value?_finite, signedQuanta_eq_natCast_iff.2 ⟨quanta, ?_⟩]
      intro negative
      rw [sign negative, Nat.zero_mul]
    refine ⟨⟨⟨rfl, zero_le_iff.2 ⟨_, value, Int.natCast_nonneg _⟩⟩, ?_⟩, ?_⟩
    · show (m.quanta % unit == 0) = true
      rw [quanta, Nat.mul_mod_left]
      rfl
    · refine le_iff.2 ⟨_, _, value, top, ?_⟩
      exact_mod_cast Nat.mul_le_mul_right unit range

end Binary64

end AccessLatency
