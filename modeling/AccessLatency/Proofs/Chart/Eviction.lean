import AccessLatency.Proofs.Binary64.Exact
import AccessLatency.Proofs.Binary64.WholeNumbers
import AccessLatency.Proofs.Chart.Landmarks
import Mathlib.Tactic

/-!
# The eviction size, exactly

The eviction size is half of the last cache times the number of words in a page. Half of a whole
number of bytes is a number whether or not it is whole, the number of words in a page is whole if
words divide it, and their product is again half of a whole number. As long as these whole numbers are
below `2 ^ 53` all three are numbers, so none of the three operations rounds: `eviction_exact`.
-/

set_option autoImplicit false

namespace AccessLatency

namespace Landmarks

/-- One half has half as many quanta as one. -/
theorem exists_half : ∃ h : Magnitude, half = .finite false h ∧ h.quanta * 2 = Binary64.unit := by
  obtain ⟨h, value, least, most⟩ := within_half
  obtain ⟨e, he, one⟩ := Binary64.unit_eq_two_pow
  refine ⟨h, value, ?_⟩
  have quanta : h.quanta = 2 ^ (e - 1) := by
    have shown : e - 1 = 1073 := by omega
    rw [shown]
    exact Nat.le_antisymm most least
  rw [quanta, one, ← Nat.pow_succ, Nat.succ_eq_add_one, Nat.sub_add_cancel (by omega)]

variable {sizes : MachineSizes}

/-- The number of words in a page, if words divide it. -/
theorem exists_wordsPerPage (page : sizes.page.toNat < 2 ^ 53) (word : sizes.word.toNat < 2 ^ 53)
    (filled : 0 < sizes.word.toNat) (divides : sizes.word.toNat ∣ sizes.page.toNat) :
    ∃ m : Magnitude,
      Binary64.div (Binary64.ofWord sizes.page) (Binary64.ofWord sizes.word) = .finite false m ∧
        m.quanta = sizes.page.toNat / sizes.word.toNat * Binary64.unit := by
  obtain ⟨a, pages, quantaA⟩ := Binary64.exists_ofWord_of_le page.le
  obtain ⟨b, words, quantaB⟩ := Binary64.exists_ofWord_of_le word.le
  have most : sizes.page.toNat / sizes.word.toNat ≤ 2 ^ 53 := (Nat.div_le_self _ _).trans page.le
  obtain ⟨c, quantaC⟩ := Binary64.exists_magnitude_of_le most
  have divisor : b.quanta ≠ 0 := by
    rw [quantaB]
    exact Nat.mul_ne_zero filled.ne' Binary64.unit_pos.ne'
  have exact : a.quanta * Binary64.unit = c.quanta * b.quanta := by
    rw [quantaA, quantaB, quantaC, Nat.mul_mul_mul_comm, Nat.div_mul_cancel divides, Nat.mul_assoc]
  exact ⟨c, by rw [pages, words, Binary64.div_of_exact false false divisor exact]; rfl, quantaC⟩

/-- Half of the last cache times the number of words in a page, where words divide the page and none
of these whole numbers reaches `2 ^ 53`: no rounding takes place. -/
theorem eviction_exact (l3 : sizes.l3.toNat < 2 ^ 53) (page : sizes.page.toNat < 2 ^ 53)
    (word : sizes.word.toNat < 2 ^ 53) (filled : 0 < sizes.word.toNat)
    (divides : sizes.word.toNat ∣ sizes.page.toNat)
    (small : sizes.l3.toNat * (sizes.page.toNat / sizes.word.toNat) < 2 ^ 53) :
    (ofSizes sizes).eviction.rational? =
      some (((sizes.l3.toNat * (sizes.page.toNat / sizes.word.toNat) : ℕ) : ℚ) / 2) := by
  obtain ⟨a, cache, quantaA⟩ := Binary64.exists_ofWord_of_le l3.le
  obtain ⟨h, half, quantaH⟩ := exists_half
  obtain ⟨w, words, quantaW⟩ := exists_wordsPerPage page word filled divides
  obtain ⟨b, quantaB⟩ := Binary64.exists_magnitude_half l3.le
  obtain ⟨c, quantaC⟩ := Binary64.exists_magnitude_half small.le
  generalize sizes.page.toNat / sizes.word.toNat = count at quantaW quantaC ⊢
  -- Halves of quanta are not whole, so the equations of products are shown with both sides doubled.
  have first : a.quanta * h.quanta = b.quanta * Binary64.unit := by
    apply Nat.eq_of_mul_eq_mul_right Nat.two_pos
    calc a.quanta * h.quanta * 2 = a.quanta * (h.quanta * 2) := Nat.mul_assoc _ _ _
      _ = sizes.l3.toNat * Binary64.unit * Binary64.unit := by rw [quantaH, quantaA]
      _ = b.quanta * Binary64.unit * 2 := by rw [← quantaB, Nat.mul_right_comm]
  have second : b.quanta * w.quanta = c.quanta * Binary64.unit := by
    apply Nat.eq_of_mul_eq_mul_right Nat.two_pos
    calc b.quanta * w.quanta * 2 = b.quanta * 2 * w.quanta := Nat.mul_right_comm _ _ _
      _ = sizes.l3.toNat * count * Binary64.unit * Binary64.unit := by rw [quantaB, quantaW]; ring
      _ = c.quanta * Binary64.unit * 2 := by rw [← quantaC, Nat.mul_right_comm]
  have value : (ofSizes sizes).eviction = .finite false c := by
    unfold ofSizes evictionSize
    dsimp only
    rw [cache, half, words, Binary64.mul_of_exact false false first]
    exact Binary64.mul_of_exact false false second
  rw [value, Binary64.rational?_eq_some_iff]
  refine ⟨false, c, rfl, ?_⟩
  have double : (c.quanta : ℚ) * 2 = (sizes.l3.toNat * count : ℕ) * Binary64.unit := by
    exact_mod_cast quantaC
  rw [Binary64.signedQuanta_false]
  push_cast at double ⊢
  linarith

/-- A machine whose eviction size is no whole number, and has as many bits as a number can have. -/
def oddMachine : MachineSizes :=
  { l3 := 441650591, word := 8, page := 163155208 }

/-- The product of the last cache and the number of words in a page is `2 ^ 53 - 1` on this machine,
and the half of it is the eviction size. -/
theorem eviction_oddMachine :
    oddMachine.l3.toNat * (oddMachine.page.toNat / oddMachine.word.toNat) = 2 ^ 53 - 1 ∧
      (ofSizes oddMachine).eviction.rational? = some ((2 ^ 53 - 1) / 2) := by
  have product :
      oddMachine.l3.toNat * (oddMachine.page.toNat / oddMachine.word.toNat) = 2 ^ 53 - 1 := by
    decide
  have small : oddMachine.l3.toNat * (oddMachine.page.toNat / oddMachine.word.toNat) < 2 ^ 53 := by
    rw [product]
    decide
  have exact := eviction_exact (by decide) (by decide) (by decide) (by decide) (by decide) small
  rw [product] at exact
  refine ⟨product, exact.trans ?_⟩
  norm_num

end Landmarks

end AccessLatency
