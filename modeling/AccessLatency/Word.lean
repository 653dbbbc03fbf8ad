import AccessLatency.Power

/-!
# Checked arithmetic on words

Sums and products of words of 64 bits that are exact or fail. `add_eq_ok` and `mul_eq_ok` say when
they do not fail.
-/

set_option autoImplicit false

namespace AccessLatency

namespace Word

/-- The operation whose exact result is no word. -/
inductive Overflow where
  | addition
  | subtraction
  | multiplication
  deriving DecidableEq, Repr

/-- The wording of an overflow. -/
def Overflow.message : Overflow → String
  | .addition => "attempt to add with overflow"
  | .subtraction => "attempt to subtract with overflow"
  | .multiplication => "attempt to multiply with overflow"

/-- The word with a given value, or an overflow of the given operation if there is none. -/
def ofNat (operation : Overflow) (n : Nat) : Except Overflow UInt64 :=
  if n < 2 ^ 64 then .ok (UInt64.ofNat n) else .error operation

/-- The exact sum of two words. -/
def add (a b : UInt64) : Except Overflow UInt64 := ofNat .addition (a.toNat + b.toNat)

/-- The exact product of two words. -/
def mul (a b : UInt64) : Except Overflow UInt64 := ofNat .multiplication (a.toNat * b.toNat)

/-- A number is a word exactly if there is a word of its value. -/
theorem ofNat_eq_ok {operation : Overflow} {n : Nat} {w : UInt64} :
    ofNat operation n = .ok w ↔ w.toNat = n := by
  unfold ofNat
  split
  · rename_i h
    constructor
    · intro e
      cases e
      exact UInt64.toNat_ofNat_of_lt h
    · intro e
      subst e
      simp
  · rename_i h
    constructor
    · intro e
      cases e
    · intro e
      exact absurd (e ▸ UInt64.toNat_lt w) h

/-- A sum is a word exactly if it is the sum of the values. -/
theorem add_eq_ok {a b w : UInt64} : add a b = .ok w ↔ w.toNat = a.toNat + b.toNat := ofNat_eq_ok

/-- A product is a word exactly if it is the product of the values. -/
theorem mul_eq_ok {a b w : UInt64} : mul a b = .ok w ↔ w.toNat = a.toNat * b.toNat := ofNat_eq_ok

end Word

end AccessLatency
