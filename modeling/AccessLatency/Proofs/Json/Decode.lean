import AccessLatency.Machine.Format
import Mathlib.Tactic

/-!
# Typed values that are written and read

A sequence of readers succeeds only if each of them does, `bind_eq_ok_iff`. A field that may be left
out is read if it is left out or if its value can be read, `present_eq_ok_iff`, and words are read
back as they are written.
-/

set_option autoImplicit false

namespace AccessLatency

/-- Two readers in a row give a value if the first gives one and the second goes on from it to it. -/
theorem bind_eq_ok_iff {ε α β : Type} {r : Except ε α} {next : α → Except ε β} {b : β} :
    r >>= next = .ok b ↔ ∃ a, r = .ok a ∧ next a = .ok b := by
  cases r with
  | error e => exact ⟨fun h => (by cases h), fun ⟨_, h, _⟩ => (by cases h)⟩
  | ok a => exact ⟨fun h => ⟨a, rfl, h⟩, fun ⟨_, same, h⟩ => (by cases same; exact h)⟩

namespace Json

/-- A field that may be left out is read as none if it is, and otherwise as what its value is read
as. -/
theorem present_eq_ok_iff {α : Type} {read : Json → Except Mismatch α} {key : String}
    {fields : Fields} {given : Option α} :
    present read key fields = .ok given ↔
      (Fields.get? key fields = none ∧ given = none) ∨
        ∃ j a, Fields.get? key fields = some j ∧ read j = .ok a ∧ given = some a := by
  unfold present
  cases found : Fields.get? key fields with
  | none => simp [eq_comm]
  | some j =>
    cases reads : read j with
    | error why => simp [reads, Except.map]
    | ok a => simp [reads, Except.map, eq_comm]

/-- A word within a bound is read back as a natural number. -/
theorem natural_ofWord {kind : String} {bound : Nat} {w : UInt64} (h : w.toNat ≤ bound) :
    natural kind bound (ofWord w) = .ok w.toNat := by
  show (if w.toNat ≤ bound then Except.ok w.toNat else _) = _
  rw [if_pos h]

/-- A word of 64 bits is read back, under every name of its range. -/
theorem word_ofWord (kind : String) (w : UInt64) : word kind (ofWord w) = .ok w := by
  have range : w.toNat ≤ 2 ^ 64 - 1 := Nat.le_pred_of_lt w.toNat_lt
  unfold word
  rw [natural_ofWord range, Except.map, UInt64.ofNat_toNat]

/-- A word of 32 bits is read back. -/
theorem word32_ofWord (w : UInt32) : word32 (ofWord (UInt64.ofNat w.toNat)) = .ok w := by
  have below := w.toNat_lt
  have same : (UInt64.ofNat w.toNat).toNat = w.toNat := by
    rw [UInt64.toNat_ofNat']
    omega
  unfold word32
  rw [natural_ofWord (by omega), same, Except.map, UInt32.ofNat_toNat]

end Json

end AccessLatency
