import AccessLatency.Proofs.Binary64.Scaling
import Mathlib.Tactic

/-!
# Numbers and their bits

Every pattern of 64 bits is that of a number: `toBits_ofBits`. So a statement about all numbers is
one about all patterns, those of the numbers that are not numbers included.
-/

set_option autoImplicit false

namespace AccessLatency

namespace Binary64

/-- A significand of 53 bits is finite up to the exponent of the largest numbers. -/
theorem significand_lt_quantaLimit {m k : Nat} (small : m < 2 ^ 53) (exponent : k ≤ 2045) :
    m * 2 ^ k < quantaLimit := by
  have least : 2 ^ (53 + k) ≤ quantaLimit := by
    have top : 53 + k ≤ 2098 := by omega
    unfold quantaLimit
    generalize 2098 = n at top ⊢
    exact Nat.pow_le_pow_right Nat.two_pos top
  rw [Nat.pow_add] at least
  exact (Nat.mul_lt_mul_of_pos_right small (Nat.two_pow_pos k)).trans_le least

/-- A word is put together again from its sign, exponent and fraction. -/
theorem ofNat_fields (bits : UInt64) :
    UInt64.ofNat ((if decide (2 ^ 63 ≤ bits.toNat) = true then 2 ^ 63 else 0) +
      (bits.toNat / 2 ^ 52 % 2 ^ 11 * 2 ^ 52 + bits.toNat % 2 ^ 52)) = bits := by
  have top := UInt64.toNat_lt bits
  have whole : (if decide (2 ^ 63 ≤ bits.toNat) = true then 2 ^ 63 else 0) +
      (bits.toNat / 2 ^ 52 % 2 ^ 11 * 2 ^ 52 + bits.toNat % 2 ^ 52) = bits.toNat := by
    simp only [decide_eq_true_eq]
    split <;> omega
  rw [whole, UInt64.ofNat_toNat]

/-- The bits of a finite number are its sign, the exponent of the gap around it, and its significand
in front of that gap. -/
theorem toBits_finite (negative : Bool) (m : Magnitude) :
    toBits (.finite negative m) =
      UInt64.ofNat ((if negative = true then 2 ^ 63 else 0) +
        (gapExponent m.quanta * 2 ^ 52 + m.quanta / 2 ^ gapExponent m.quanta)) := rfl

/-- The bits of the number with given bits are these bits. -/
theorem toBits_ofBits (bits : UInt64) : (ofBits bits).toBits = bits := by
  have fields := ofNat_fields bits
  have fraction := Nat.mod_lt bits.toNat (Nat.two_pow_pos 52)
  have exponent := Nat.mod_lt (bits.toNat / 2 ^ 52) (Nat.two_pow_pos 11)
  unfold ofBits
  dsimp only
  split
  · rename_i special
    rw [special] at fields
    split
    · rename_i none
      rw [none] at fields
      exact fields
    · exact fields
  · rename_i finite
    generalize bits.toNat % 2 ^ 52 = f at fields fraction ⊢
    generalize bits.toNat / 2 ^ 52 % 2 ^ 11 = e at fields exponent finite ⊢
    split
    · rename_i subnormal
      subst subnormal
      have small : f < 2 ^ 53 := by omega
      have bounded := significand_lt_quantaLimit small (Nat.zero_le 2045)
      rw [Nat.pow_zero, Nat.mul_one] at bounded
      rw [ofQuotient_of_fits _ (fits_of_lt small) bounded, toBits_finite]
      dsimp only
      rw [gapExponent_eq_zero small, Nat.pow_zero, Nat.div_one]
      exact fields
    · rename_i normal
      have lo : 2 ^ 52 ≤ 2 ^ 52 + f := Nat.le_add_right _ _
      have hi : 2 ^ 52 + f < 2 ^ 53 := by omega
      have bounded := significand_lt_quantaLimit (k := e - 1) hi (by omega)
      rw [ofQuotient_of_fits _ (fits_mul_pow lo hi.le) bounded, toBits_finite]
      dsimp only
      rw [gapExponent_mul_pow lo hi, Nat.mul_div_cancel _ (Nat.two_pow_pos _)]
      have split : (e - 1) * 2 ^ 52 + (2 ^ 52 + f) = e * 2 ^ 52 + f := by omega
      rw [split]
      exact fields

end Binary64

end AccessLatency
