import AccessLatency.Power

/-!
# Floating-point numbers of 64 bits

Latencies, axis bounds and growth factors are binary floating-point numbers with 53 significant
bits. A finite number is a sign and a whole number of *quanta*, one quantum being the smallest
positive number `2 ^ (-1074)`; so all finite numbers are whole, an exact sum or product is a
computation on natural numbers, and the order of magnitudes is the order of `Nat`.

`roundQuotient` is the one place where digits are lost: it takes an exact quotient of naturals to
the nearest number of quanta that fits 53 bits, ties to the even neighbour. The main statement of
this file is `fits_roundQuotient`: what it returns always fits, so every operation stays inside the
type. `roundQuotient_of_fits` says that it leaves alone what fits already.
-/

set_option autoImplicit false

namespace AccessLatency

namespace Binary64

/-- The exponent of the gap between neighbouring magnitudes around `n` quanta: no gap beyond one
quantum below `2 ^ 53`, and one doubling of the gap for each further doubling of `n`. -/
def gapExponent (n : Nat) : Nat := n.log2 - 52

/-- A number of quanta has at most 53 significant bits: it is a multiple of the gap around it. -/
def Fits (n : Nat) : Prop := n % 2 ^ gapExponent n = 0

instance (n : Nat) : Decidable (Fits n) := inferInstanceAs (Decidable (_ = _))

/-- The number of quanta in `2 ^ 1024`, the first magnitude that is no longer finite. -/
def quantaLimit : Nat := 2 ^ 2098

/-- There are finite numbers. -/
theorem quantaLimit_pos : 0 < quantaLimit := by
  unfold quantaLimit
  generalize 2098 = n
  exact Nat.two_pow_pos n

/-- The number of quanta in one. -/
def unit : Nat := 2 ^ 1074

end Binary64

/-- The absolute value of a finite number, as a number of quanta. -/
structure Magnitude where
  quanta : Nat
  fits : Binary64.Fits quanta
  bounded : quanta < Binary64.quantaLimit
  deriving DecidableEq

/-- The bits that tell one number that is not a number from another of the same sign. They are not
all zero, which is how an infinity is written. -/
structure Payload where
  bits : Nat
  pos : 0 < bits
  bounded : bits < 2 ^ 52
  deriving DecidableEq

namespace Payload

/-- The payload of an operation without a result. -/
def quiet : Payload := ⟨2 ^ 51, by decide, by decide⟩

/-- The payload with its highest bit set, as operations hand it on. -/
def quieted (p : Payload) : Payload :=
  if h : p.bits < 2 ^ 51 then ⟨2 ^ 51 + p.bits, by omega, by omega⟩ else p

end Payload

/-- A floating-point number of 64 bits. A number that is not a number has a sign and a payload, by
which the total order places it. -/
inductive Binary64 where
  | nan (negative : Bool) (payload : Payload := Payload.quiet)
  | infinity (negative : Bool)
  | finite (negative : Bool) (magnitude : Magnitude)
  deriving DecidableEq

namespace Binary64

/-- A number is no less than the power of two at its highest bit. -/
theorem pow_log2_le {n : Nat} (h : n ≠ 0) : 2 ^ n.log2 ≤ n := Nat.log2_self_le h

/-- A number is below the power of two behind its highest bit. -/
theorem lt_pow_log2_succ (n : Nat) : n < 2 ^ (n.log2 + 1) := Nat.lt_log2_self

/-- Below `2 ^ 53` the gap is one quantum. -/
theorem gapExponent_eq_zero {n : Nat} (h : n < 2 ^ 53) : gapExponent n = 0 := by
  unfold gapExponent
  by_cases h0 : n = 0
  · subst h0; decide
  · have : n.log2 < 53 := (Nat.log2_lt h0).2 h
    omega

/-- Every number of quanta below `2 ^ 53` fits. -/
theorem fits_of_lt {n : Nat} (h : n < 2 ^ 53) : Fits n := by
  unfold Fits
  rw [gapExponent_eq_zero h]
  exact Nat.mod_one n

/-- A significand of 53 bits shifted by `k` has gap exponent `k`. -/
theorem gapExponent_mul_pow {m k : Nat} (lo : 2 ^ 52 ≤ m) (hi : m < 2 ^ 53) :
    gapExponent (m * 2 ^ k) = k := by
  have pos : 0 < 2 ^ k := Nat.two_pow_pos k
  have ne : m * 2 ^ k ≠ 0 := Nat.mul_ne_zero (by omega) (by omega)
  have ge : 52 + k ≤ (m * 2 ^ k).log2 := by
    rw [Nat.le_log2 ne, Nat.pow_add]
    exact Nat.mul_le_mul_right _ lo
  have lt : (m * 2 ^ k).log2 < 53 + k := by
    rw [Nat.log2_lt ne, Nat.pow_add]
    exact Nat.mul_lt_mul_of_pos_right hi pos
  unfold gapExponent
  omega

/-- A significand of at most 53 bits, shifted, fits; `2 ^ 53` itself is included, being the next
binade's smallest significand. -/
theorem fits_mul_pow {m k : Nat} (lo : 2 ^ 52 ≤ m) (hi : m ≤ 2 ^ 53) : Fits (m * 2 ^ k) := by
  unfold Fits
  rcases Nat.lt_or_ge m (2 ^ 53) with h | h
  · rw [gapExponent_mul_pow lo h]
    exact Nat.mul_mod_left m (2 ^ k)
  · have e : m * 2 ^ k = 2 ^ 52 * 2 ^ (k + 1) := by
      have : m = 2 ^ 53 := by omega
      subst this
      rw [Nat.pow_succ 2 k]
      omega
    rw [e, gapExponent_mul_pow (by decide) (by decide)]
    exact Nat.mul_mod_left _ _

/-- The whole number nearest to `p / d`; halfway between two, the even one. -/
def roundHalfEven (p d : Nat) : Nat :=
  let q := p / d
  let r := p % d
  if 2 * r < d then q
  else if d < 2 * r then q + 1
  else q + q % 2

/-- A quotient is rounded to its floor or to the number after it: it is not rounded below the
floor. -/
theorem le_roundHalfEven (p d : Nat) : p / d ≤ roundHalfEven p d := by
  unfold roundHalfEven
  dsimp only
  split
  · exact Nat.le_refl _
  · split <;> omega

/-- A quotient is not rounded further up than to the number after its floor. -/
theorem roundHalfEven_le (p d : Nat) : roundHalfEven p d ≤ p / d + 1 := by
  unfold roundHalfEven
  dsimp only
  split
  · omega
  · split
    · omega
    · have := Nat.mod_lt (p / d) (by decide : 0 < 2)
      omega

/-- An exact quotient is not changed. -/
theorem roundHalfEven_mul {q d : Nat} (h : 0 < d) : roundHalfEven (q * d) d = q := by
  unfold roundHalfEven
  simp [Nat.mul_div_cancel q h, h]

/-- The number of quanta nearest to `p / d` among those that fit; halfway between two neighbours,
the one whose significand is even. -/
def roundQuotient (p d : Nat) : Nat :=
  let k := gapExponent (p / d)
  roundHalfEven p (d * 2 ^ k) * 2 ^ k

/-- Rounding ends at a number of quanta that fits. -/
theorem fits_roundQuotient (p d : Nat) : Fits (roundQuotient p d) := by
  unfold roundQuotient
  dsimp only
  by_cases small : p / d < 2 ^ 53
  · rw [gapExponent_eq_zero small]
    have hi := roundHalfEven_le p (d * 2 ^ 0)
    simp only [Nat.pow_zero, Nat.mul_one] at hi ⊢
    rcases Nat.lt_or_ge (roundHalfEven p d) (2 ^ 53) with h | h
    · exact fits_of_lt h
    · have : roundHalfEven p d = 2 ^ 52 * 2 ^ 1 := by omega
      rw [this]
      exact fits_mul_pow (by decide) (by decide)
  · have ne : p / d ≠ 0 := by omega
    have lo : 2 ^ (p / d).log2 ≤ p / d := pow_log2_le ne
    have hi : p / d < 2 ^ ((p / d).log2 + 1) := lt_pow_log2_succ _
    have log : 53 ≤ (p / d).log2 := (Nat.le_log2 ne).2 (by omega)
    have split1 : (p / d).log2 = 52 + gapExponent (p / d) := by unfold gapExponent; omega
    generalize gapExponent (p / d) = k at split1
    rw [split1] at lo hi
    have quot : p / (d * 2 ^ k) = p / d / 2 ^ k := (Nat.div_div_eq_div_mul p d (2 ^ k)).symm
    have pos : 0 < 2 ^ k := Nat.two_pow_pos k
    have qlo : 2 ^ 52 ≤ p / (d * 2 ^ k) := by
      rw [quot, Nat.le_div_iff_mul_le pos, ← Nat.pow_add]
      exact lo
    have qhi : p / (d * 2 ^ k) < 2 ^ 53 := by
      rw [quot, Nat.div_lt_iff_lt_mul pos, ← Nat.pow_add]
      have : 53 + k = 52 + k + 1 := by omega
      rw [this]
      exact hi
    have rlo := le_roundHalfEven p (d * 2 ^ k)
    have rhi := roundHalfEven_le p (d * 2 ^ k)
    exact fits_mul_pow (by omega) (by omega)

/-- A number of quanta that fits is its own rounding. -/
theorem roundQuotient_of_fits {n d : Nat} (hd : 0 < d) (h : Fits n) :
    roundQuotient (n * d) d = n := by
  unfold roundQuotient
  dsimp only
  rw [Nat.mul_div_cancel n hd]
  unfold Fits at h
  generalize 2 ^ gapExponent n = g at h
  by_cases hg : g = 0
  · subst hg
    have : n = 0 := by simpa using h
    subst this
    simp
  · have e : n = n / g * g := by
      have := Nat.div_add_mod n g
      rw [h, Nat.add_zero, Nat.mul_comm] at this
      exact this.symm
    have pos : 0 < d * g := Nat.mul_pos hd (by omega)
    have e2 : n * d = n / g * (d * g) := by
      conv => lhs; rw [e]
      rw [Nat.mul_assoc, Nat.mul_comm g d]
    rw [e2, roundHalfEven_mul pos]
    exact e.symm

/-- The number with the given sign nearest to `p / d` quanta: infinite from the point where the
nearest number with unbounded exponent would be `2 ^ 1024` or more. -/
def ofQuotient (negative : Bool) (p d : Nat) : Binary64 :=
  if h : roundQuotient p d < quantaLimit then
    .finite negative ⟨roundQuotient p d, fits_roundQuotient p d, h⟩
  else
    .infinity negative

/-- The number nearest to a natural number. -/
def ofNat (n : Nat) : Binary64 := ofQuotient false (n * unit) 1

/-- Zero, with a sign. -/
def zero (negative : Bool) : Binary64 :=
  .finite negative ⟨0, fits_of_lt (by decide), quantaLimit_pos⟩

/-- Whether the sign is set; zero and what is not a number have one, too. -/
def isNegative : Binary64 → Bool
  | .nan s _ => s
  | .infinity s => s
  | .finite s _ => s

def isNaN : Binary64 → Bool
  | .nan _ _ => true
  | _ => false

def isFinite : Binary64 → Bool
  | .finite _ _ => true
  | _ => false

/-- The 64 bits of the interchange format: sign, eleven bits of exponent, fifty-two of fraction. -/
def toBits (v : Binary64) : UInt64 :=
  let rest : Nat := match v with
    | .nan _ p => 2047 * 2 ^ 52 + p.bits
    | .infinity _ => 2047 * 2 ^ 52
    | .finite _ m =>
      let k := gapExponent m.quanta
      k * 2 ^ 52 + m.quanta / 2 ^ k
  UInt64.ofNat ((if v.isNegative then 2 ^ 63 else 0) + rest)

/-- The number with the given bits of the interchange format. -/
def ofBits (bits : UInt64) : Binary64 :=
  let b := bits.toNat
  let negative := decide (2 ^ 63 ≤ b)
  let exponent := b / 2 ^ 52 % 2 ^ 11
  let fraction := b % 2 ^ 52
  if exponent = 2047 then
    if h : fraction = 0 then .infinity negative
    else .nan negative ⟨fraction, Nat.pos_of_ne_zero h, Nat.mod_lt b (Nat.two_pow_pos 52)⟩
  else if exponent = 0 then
    ofQuotient negative fraction 1
  else
    ofQuotient negative ((2 ^ 52 + fraction) * 2 ^ (exponent - 1)) 1

end Binary64

end AccessLatency
