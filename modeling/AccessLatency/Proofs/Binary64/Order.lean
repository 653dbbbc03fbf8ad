import AccessLatency.Binary64.Arithmetic
import AccessLatency.Proofs.Binary64.Rounding
import Mathlib.Tactic

/-!
# Arithmetic and the order of values

The value of a rounded sum is the `rounded` exact one, a function of whole numbers of quanta that is
odd and leaves every finite number on its side: what is exactly at most a number is rounded to at
most it. So a number plus something that is not negative is at least the number, `le_add`, and a
number minus it is at most the number, `sub_le`, also where the result is infinite. Whether rounding
absorbs what is added depends on the gap around the number alone: `lt_add_or_sub_lt` says that a
number cannot absorb one gap on both sides.

Of products and quotients it is said what a factor does to a positive number: one of at least one
and a half makes it larger, `lt_mul`, and division by one below two leaves it positive,
`zero_lt_div`, both down to the smallest number there is.
-/

set_option autoImplicit false

namespace AccessLatency

namespace Binary64

variable {a b c : Binary64}

/-! ## The order of values -/

/-- One number is at most another exactly if both have values and these are in that order. -/
theorem le_iff : le a b = true ↔ ∃ p q, a.value? = some p ∧ b.value? = some q ∧ p ≤ q := by
  unfold le
  cases a.value? <;> cases b.value? <;> simp

/-- One number is less than another exactly if both have values and these are in that order. -/
theorem lt_iff : lt a b = true ↔ ∃ p q, a.value? = some p ∧ b.value? = some q ∧ p < q := by
  unfold lt
  cases a.value? <;> cases b.value? <;> simp

/-- The order of values is transitive. -/
protected theorem le_trans (h : le a b = true) (h' : le b c = true) : le a c = true := by
  obtain ⟨p, q, hp, hq, hpq⟩ := le_iff.1 h
  obtain ⟨q', r, hq', hr, hqr⟩ := le_iff.1 h'
  obtain rfl : q = q' := Option.some.inj (hq.symm.trans hq')
  exact le_iff.2 ⟨p, r, hp, hr, hpq.trans hqr⟩

/-- What is less is at most. -/
protected theorem le_of_lt (h : lt a b = true) : le a b = true := by
  obtain ⟨p, q, hp, hq, hpq⟩ := lt_iff.1 h
  exact le_iff.2 ⟨p, q, hp, hq, hpq.le⟩

/-- What is at most a number that is less than another is less than that. -/
protected theorem lt_of_le_of_lt (h : le a b = true) (h' : lt b c = true) : lt a c = true := by
  obtain ⟨p, q, hp, hq, hpq⟩ := le_iff.1 h
  obtain ⟨q', r, hq', hr, hqr⟩ := lt_iff.1 h'
  obtain rfl : q = q' := Option.some.inj (hq.symm.trans hq')
  exact lt_iff.2 ⟨p, r, hp, hr, hpq.trans_lt hqr⟩

/-- What is less than a number that is at most another is less than that. -/
protected theorem lt_of_lt_of_le (h : lt a b = true) (h' : le b c = true) : lt a c = true := by
  obtain ⟨p, q, hp, hq, hpq⟩ := lt_iff.1 h
  obtain ⟨q', r, hq', hr, hqr⟩ := le_iff.1 h'
  obtain rfl : q = q' := Option.some.inj (hq.symm.trans hq')
  exact lt_iff.2 ⟨p, r, hp, hr, hpq.trans_le hqr⟩

/-- The value of a finite number is its signed number of quanta. -/
@[simp] theorem value?_finite (s : Bool) (m : Magnitude) :
    value? (.finite s m) = some (signedQuanta s m) := rfl

/-- A number is not negative exactly if its value is not. -/
theorem zero_le_iff : le (zero false) a = true ↔ ∃ q, a.value? = some q ∧ 0 ≤ q := by
  have zero : value? (zero false) = some 0 := rfl
  rw [le_iff, zero]
  simp

/-- The sign does not change the magnitude. -/
theorem natAbs_signedQuanta (s : Bool) (m : Magnitude) : (signedQuanta s m).natAbs = m.quanta := by
  cases s <;> simp [signedQuanta]

/-- Without a sign the value is the magnitude. -/
theorem signedQuanta_false (m : Magnitude) : signedQuanta false m = m.quanta := rfl

/-- The other sign gives the negated value. -/
theorem signedQuanta_not (s : Bool) (m : Magnitude) :
    signedQuanta (!s) m = -signedQuanta s m := by
  cases s <;> simp [signedQuanta]

/-- A finite number is a sign and a magnitude. -/
theorem exists_finite (h : a.isFinite = true) : ∃ s m, a = .finite s m := by
  cases a with
  | nan s p => cases h
  | infinity s => cases h
  | finite s m => exact ⟨s, m, rfl⟩

/-- What is earlier in the total order is no larger. -/
theorem le_of_totalRank_le (ha : a.isFinite = true) (hb : b.isFinite = true)
    (h : a.totalRank ≤ b.totalRank) : le a b = true := by
  obtain ⟨s, m, rfl⟩ := exists_finite ha
  obtain ⟨t, n, rfl⟩ := exists_finite hb
  refine le_iff.2 ⟨_, _, rfl, rfl, ?_⟩
  simp only [totalRank, isNegative, totalDistance, signedQuanta] at h ⊢
  cases s <;> cases t <;> simp at h ⊢ <;> omega

/-! ## Rounding a whole number of quanta -/

/-- The next number of quanta that fits. -/
theorem Fits.next {n : Nat} (h : Fits n) : Fits (n + 2 ^ gapExponent n) := by
  obtain ⟨m, whole, small, large⟩ := h.exists_significand
  generalize gapExponent n = k at whole large ⊢
  have next : n + 2 ^ k = (m + 1) * 2 ^ k := by rw [whole, Nat.add_one_mul]
  rw [next]
  by_cases wide : k = 0
  · subst wide
    rw [Nat.pow_zero, Nat.mul_one]
    by_cases top : m + 1 < 2 ^ 53
    · exact fits_of_lt top
    · have last : m + 1 = 2 ^ 53 * 2 ^ 0 := by omega
      rw [last]
      exact fits_mul_pow (by decide) le_rfl
  · exact fits_mul_pow (by have := large wide; omega) small

/-- A quotient of quanta, rounded; what is no longer finite is at the limit. -/
def roundedQuotient (p d : Nat) : Nat := min (roundQuotient p d) quantaLimit

/-- The value of a rounded quotient is its number of quanta under its sign. -/
theorem value?_ofQuotient (negative : Bool) (p d : Nat) :
    (ofQuotient negative p d).value? =
      some (if negative then -(roundedQuotient p d : Int) else (roundedQuotient p d : Int)) := by
  unfold ofQuotient roundedQuotient
  split
  · rename_i finite
    rw [value?_finite, Nat.min_eq_left finite.le]
    rfl
  · rename_i infinite
    rw [Nat.min_eq_right (not_lt.1 infinite)]
    rfl

/-- Nothing, divided by anything, is nothing. -/
@[simp] theorem roundedQuotient_zero (d : Nat) : roundedQuotient 0 d = 0 := by
  simp [roundedQuotient, roundQuotient, roundHalfEven]

/-- What is at most a finite magnitude is rounded to at most it. -/
theorem roundedQuotient_le {p d : Nat} (hd : 0 < d) {m : Magnitude} (h : p ≤ m.quanta * d) :
    roundedQuotient p d ≤ m.quanta :=
  (Nat.min_le_left _ _).trans (roundQuotient_le hd m.fits h)

/-- What is at least a finite magnitude is rounded to at least it. -/
theorem le_roundedQuotient {p d : Nat} (hd : 0 < d) {m : Magnitude} (h : m.quanta * d ≤ p) :
    m.quanta ≤ roundedQuotient p d :=
  Nat.le_min.2 ⟨le_roundQuotient hd m.fits h, m.bounded.le⟩

/-- What is a gap or more beyond a finite magnitude is rounded to more than it. -/
theorem lt_roundedQuotient {p d : Nat} (hd : 0 < d) {m : Magnitude}
    (h : (m.quanta + 2 ^ gapExponent m.quanta) * d ≤ p) : m.quanta < roundedQuotient p d := by
  have gap : 0 < 2 ^ gapExponent m.quanta := Nat.two_pow_pos _
  have next := le_roundQuotient hd m.fits.next h
  exact Nat.lt_min.2 ⟨by omega, m.bounded⟩

/-- A whole number of quanta, rounded. -/
def rounded (q : Int) : Int :=
  if q < 0 then -(roundedQuotient q.natAbs 1 : Int) else (roundedQuotient q.natAbs 1 : Int)

/-- The value of an exact number of quanta is the rounded one, whatever sign a zero is given. -/
theorem value?_ofQuanta (zeroSign : Bool) (q : Int) :
    (ofQuanta zeroSign q).value? = some (rounded q) := by
  unfold ofQuanta rounded
  split
  · rename_i none
    subst none
    rw [Int.natAbs_zero, roundedQuotient_zero]
    cases zeroSign <;> rfl
  · rw [value?_ofQuotient]
    simp only [decide_eq_true_eq]

/-- The value of a sum of finite numbers is the rounded sum of their values. -/
theorem value?_add (s t : Bool) (m n : Magnitude) :
    (add (.finite s m) (.finite t n)).value? =
      some (rounded (signedQuanta s m + signedQuanta t n)) :=
  value?_ofQuanta _ _

/-- The value of a difference of finite numbers is the rounded difference of their values. -/
theorem value?_sub (s t : Bool) (m n : Magnitude) :
    (sub (.finite s m) (.finite t n)).value? =
      some (rounded (signedQuanta s m - signedQuanta t n)) := by
  rw [sub_eq_add_neg, ← signedQuanta_not]
  exact value?_add s (!t) m n

/-- Rounding is odd. -/
theorem rounded_neg (q : Int) : rounded (-q) = -rounded q := by
  unfold rounded
  rw [Int.natAbs_neg]
  rcases lt_trichotomy q 0 with below | rfl | above
  · rw [if_neg (by omega), if_pos below, neg_neg]
  · rw [Int.natAbs_zero, roundedQuotient_zero]
    rfl
  · rw [if_pos (by omega), if_neg (by omega)]

/-- What is not negative is not rounded to something negative. -/
theorem zero_le_rounded {q : Int} (h : 0 ≤ q) : 0 ≤ rounded q := by
  unfold rounded
  rw [if_neg (by omega)]
  exact Int.natCast_nonneg _

/-- What is at most a finite number is rounded to at most it. -/
theorem rounded_le {q : Int} {s : Bool} {m : Magnitude} (h : q ≤ signedQuanta s m) :
    rounded q ≤ signedQuanta s m := by
  have abs := natAbs_signedQuanta s m
  generalize signedQuanta s m = v at h abs ⊢
  unfold rounded
  split
  · by_cases negative : v < 0
    · have least : m.quanta ≤ roundedQuotient q.natAbs 1 :=
        le_roundedQuotient Nat.one_pos (by omega)
      omega
    · omega
  · have most : roundedQuotient q.natAbs 1 ≤ m.quanta :=
      roundedQuotient_le Nat.one_pos (by omega)
    omega

/-- What is at least a finite number is rounded to at least it. -/
theorem le_rounded {q : Int} {s : Bool} {m : Magnitude} (h : signedQuanta s m ≤ q) :
    signedQuanta s m ≤ rounded q := by
  have below : rounded (-q) ≤ signedQuanta (!s) m := by
    apply rounded_le
    rw [signedQuanta_not]
    exact neg_le_neg h
  rw [rounded_neg, signedQuanta_not] at below
  exact neg_le_neg_iff.1 below

/-- What is a gap or more beyond a number is rounded to more than it. -/
theorem lt_rounded {m : Magnitude} {q : Int}
    (h : ((m.quanta + 2 ^ gapExponent m.quanta : Nat) : Int) ≤ q) :
    (m.quanta : Int) < rounded q := by
  obtain ⟨next, hnext⟩ : ∃ next, next = m.quanta + 2 ^ gapExponent m.quanta := ⟨_, rfl⟩
  rw [← hnext] at h
  unfold rounded
  rw [if_neg (by omega)]
  exact_mod_cast lt_roundedQuotient Nat.one_pos (by omega)

/-! ## Sums -/

/-- No finite number is above positive infinity. -/
theorem le_infinity (ha : a.isFinite = true) : le a (.infinity false) = true := by
  obtain ⟨s, m, rfl⟩ := exists_finite ha
  have abs := natAbs_signedQuanta s m
  have bounded := m.bounded
  exact le_iff.2 ⟨_, quantaLimit, rfl, rfl, by omega⟩

/-- No finite number is below negative infinity. -/
theorem infinity_le (ha : a.isFinite = true) : le (.infinity true) a = true := by
  obtain ⟨s, m, rfl⟩ := exists_finite ha
  have abs := natAbs_signedQuanta s m
  have bounded := m.bounded
  exact le_iff.2 ⟨-(quantaLimit : Int), _, rfl, rfl, by omega⟩

/-- A number that is not negative is finite or positive infinity. -/
theorem cases_of_zero_le (h : le (zero false) a = true) :
    a = .infinity false ∨ ∃ s m, a = .finite s m ∧ 0 ≤ signedQuanta s m := by
  obtain ⟨q, value, nonneg⟩ := zero_le_iff.1 h
  cases a with
  | nan s p => cases value
  | infinity s =>
    obtain rfl := Option.some.inj value
    have limit := quantaLimit_pos
    cases s with
    | false => exact Or.inl rfl
    | true =>
      simp only [if_true] at nonneg
      omega
  | finite s m =>
    obtain rfl := Option.some.inj value
    exact Or.inr ⟨s, m, rfl, nonneg⟩

/-- Adding what is not negative does not lead below a number. -/
theorem le_add (ha : a.isFinite = true) (hb : le (zero false) b = true) :
    le a (add a b) = true := by
  obtain ⟨s, m, rfl⟩ := exists_finite ha
  rcases cases_of_zero_le hb with rfl | ⟨t, n, rfl, nonneg⟩
  · exact le_infinity ha
  · exact le_iff.2 ⟨_, _, rfl, value?_add s t m n, le_rounded (by omega)⟩

/-- Subtracting what is not negative does not lead above a number. -/
theorem sub_le (ha : a.isFinite = true) (hb : le (zero false) b = true) :
    le (sub a b) a = true := by
  obtain ⟨s, m, rfl⟩ := exists_finite ha
  rcases cases_of_zero_le hb with rfl | ⟨t, n, rfl, nonneg⟩
  · exact infinity_le ha
  · exact le_iff.2 ⟨_, _, value?_sub s t m n, rfl, rounded_le (by omega)⟩

/-- A number is less than it plus a gap, or more than it minus one: on the side that leads away from
zero gaps do not become narrower. -/
theorem lt_add_or_sub_lt (s : Bool) {m n : Magnitude} (wide : 2 ^ gapExponent m.quanta ≤ n.quanta) :
    lt (.finite s m) (add (.finite s m) (.finite false n)) = true ∨
      lt (sub (.finite s m) (.finite false n)) (.finite s m) = true := by
  have beyond : (m.quanta : Int) < rounded (m.quanta + n.quanta) := by
    apply lt_rounded
    exact_mod_cast Nat.add_le_add_left wide m.quanta
  cases s with
  | false => exact Or.inl (lt_iff.2 ⟨_, _, rfl, value?_add false false m n, beyond⟩)
  | true =>
    right
    refine lt_iff.2 ⟨_, _, value?_sub true false m n, rfl, ?_⟩
    have opposite : signedQuanta true m - signedQuanta false n = -(m.quanta + n.quanta : Int) := by
      simp only [signedQuanta, if_true, Bool.false_eq_true, if_false]
      ring
    rw [opposite, rounded_neg]
    exact neg_lt_neg beyond

/-! ## Products and quotients -/

/-- More than one half is rounded to one at least. -/
theorem roundQuotient_pos {p d : Nat} (hd : 0 < d) (h : d < 2 * p) : 0 < roundQuotient p d := by
  by_cases whole : d ≤ p
  · exact le_roundQuotient hd (fits_of_lt (by decide)) (by omega)
  · have floor : p / d = 0 := Nat.div_eq_of_lt (not_le.1 whole)
    have rest : p % d = p := Nat.mod_eq_of_lt (not_le.1 whole)
    unfold roundQuotient
    dsimp only
    rw [floor, gapExponent_eq_zero (by decide), Nat.pow_zero, Nat.mul_one, Nat.mul_one]
    unfold roundHalfEven
    dsimp only
    rw [floor, rest, if_neg (by omega), if_pos h]
    exact Nat.one_pos

/-- One and a half is rounded to two: it is halfway, and two is even. -/
theorem two_le_roundQuotient {p d : Nat} (hd : 0 < d) (h : 3 * d ≤ 2 * p) :
    2 ≤ roundQuotient p d := by
  by_cases whole : 2 * d ≤ p
  · exact le_roundQuotient hd (fits_of_lt (by decide)) whole
  · have floor : p / d = 1 := by
      rw [Nat.div_eq_iff hd]
      omega
    have rest : p % d + d = p := by
      have split := Nat.div_add_mod p d
      rw [floor, Nat.mul_one] at split
      omega
    unfold roundQuotient
    dsimp only
    rw [floor, gapExponent_eq_zero (by decide), Nat.pow_zero, Nat.mul_one, Nat.mul_one]
    unfold roundHalfEven
    dsimp only
    rw [floor, if_neg (by omega)]
    split <;> omega

/-- The value of a product is the rounded product of the values, under the sign of the second
factor. -/
theorem value?_mul (t : Bool) (m n : Magnitude) :
    (mul (.finite false m) (.finite t n)).value? =
      some (if t then -(roundedQuotient (m.quanta * n.quanta) unit : Int)
        else (roundedQuotient (m.quanta * n.quanta) unit : Int)) := by
  cases t <;> exact value?_ofQuotient _ _ _

/-- The value of a quotient of positive numbers is the rounded quotient of the values. -/
theorem value?_div {m n : Magnitude} (pos : 0 < n.quanta) :
    (div (.finite false m) (.finite false n)).value? =
      some (roundedQuotient (m.quanta * unit) n.quanta : Int) := by
  unfold div
  dsimp only
  rw [if_neg pos.ne', value?_ofQuotient]
  rfl

/-- A positive number times one that is not negative is not negative. -/
theorem zero_le_mul {m : Magnitude} (pos : 0 < m.quanta) (hb : le (zero false) b = true) :
    le (zero false) (mul (.finite false m) b) = true := by
  rcases cases_of_zero_le hb with rfl | ⟨t, n, rfl, nonneg⟩
  · have infinite : mul (.finite false m) (.infinity false) = .infinity false := if_neg pos.ne'
    rw [infinite]
    exact le_infinity rfl
  · refine zero_le_iff.2 ⟨_, value?_mul t m n, ?_⟩
    cases t with
    | false => exact Int.natCast_nonneg _
    | true =>
      have none : n.quanta = 0 := by
        simp only [signedQuanta, if_true] at nonneg
        omega
      rw [none, Nat.mul_zero, roundedQuotient_zero]
      rfl

variable {m f : Magnitude}

/-- Division by one or more does not make a number larger. -/
theorem div_le (factor : unit ≤ f.quanta) :
    le (div (.finite false m) (.finite false f)) (.finite false m) = true := by
  have pos : 0 < f.quanta := unit_pos.trans_le factor
  have most : roundedQuotient (m.quanta * unit) f.quanta ≤ m.quanta :=
    roundedQuotient_le pos (Nat.mul_le_mul_left m.quanta factor)
  exact le_iff.2 ⟨_, (m.quanta : Int), value?_div pos, rfl, by exact_mod_cast most⟩

/-- Division by one or more, but less than two, leaves a positive number positive: more than half a
quantum is left, which is rounded up. -/
theorem zero_lt_div (pos : 0 < m.quanta) (factor : unit ≤ f.quanta) (small : f.quanta < 2 * unit) :
    lt (zero false) (div (.finite false m) (.finite false f)) = true := by
  have positive : 0 < f.quanta := unit_pos.trans_le factor
  have least : 0 < roundQuotient (m.quanta * unit) f.quanta := by
    apply roundQuotient_pos positive
    calc f.quanta < 2 * unit := small
      _ ≤ 2 * (m.quanta * unit) := Nat.mul_le_mul_left 2 (Nat.le_mul_of_pos_left unit pos)
  have finite : 0 < roundedQuotient (m.quanta * unit) f.quanta :=
    Nat.lt_min.2 ⟨least, quantaLimit_pos⟩
  exact lt_iff.2 ⟨0, _, rfl, value?_div positive, by exact_mod_cast finite⟩

/-- A factor of one and a half or more makes a positive number larger, the smallest one too. -/
theorem lt_mul (pos : 0 < m.quanta) (factor : 3 * unit ≤ 2 * f.quanta) :
    lt (.finite false m) (mul (.finite false m) (.finite false f)) = true := by
  have more : 3 * (m.quanta * unit) ≤ 2 * (m.quanta * f.quanta) := by
    rw [Nat.mul_left_comm 3, Nat.mul_left_comm 2]
    exact Nat.mul_le_mul_left m.quanta factor
  have beyond : m.quanta < roundedQuotient (m.quanta * f.quanta) unit := by
    by_cases smallest : m.quanta = 1
    · have two : m.quanta < roundQuotient (m.quanta * f.quanta) unit := by
        rw [smallest, Nat.one_mul, Nat.one_mul] at more
        rw [smallest, Nat.one_mul]
        exact two_le_roundQuotient unit_pos more
      exact Nat.lt_min.2 ⟨two, m.bounded⟩
    · have gap : 2 * 2 ^ gapExponent m.quanta ≤ m.quanta := by
        by_cases wide : gapExponent m.quanta = 0
        · rw [wide]
          omega
        · have := gaps_le wide
          omega
      have room := Nat.mul_le_mul_right unit gap
      apply lt_roundedQuotient unit_pos
      rw [Nat.add_mul]
      rw [Nat.mul_assoc] at room
      omega
  refine lt_iff.2 ⟨m.quanta, roundedQuotient (m.quanta * f.quanta) unit, rfl,
    value?_mul false m f, ?_⟩
  exact_mod_cast beyond

end Binary64

end AccessLatency
