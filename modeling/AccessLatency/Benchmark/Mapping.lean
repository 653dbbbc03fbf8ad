import AccessLatency.Word

/-!
# Memory mapped for an array

An array is given memory of its own by the operating system: as many bytes as its elements take or,
on huge pages, the least number of whole huge pages that they fit on. A request for no bytes, or for
more than a word can count, is invalid; any other is up to the system, which may refuse it for a
reason of its own.
-/

set_option autoImplicit false

namespace AccessLatency

/-- Memory that holds the elements of an array, and the number of bytes it takes up, which are given
back together. -/
structure Mapping (α : Type) where
  elements : Array α
  bytes : UInt64

namespace Mapping

/-- Why there is no memory. -/
inductive Fault where
  | invalid
  | exhausted
  deriving DecidableEq, Repr

/-- What the system answers to a request for bytes: it grants them, or it says why not. -/
abbrev Answer := Except Fault Unit

/-- The answer of a system that can only want for memory, by whether it grants the bytes. -/
@[coe]
def Answer.ofBool (granted : Bool) : Answer := if granted then .ok () else .error .exhausted

instance : Coe Bool Answer := ⟨Answer.ofBool⟩

/-- The wording of a fault. -/
def Fault.message : Fault → String
  | .invalid => "EINVAL: Invalid argument"
  | .exhausted => "ENOMEM: Out of memory"

/-- The number of bytes of a huge page. -/
def hugePage : Nat := 2 ^ 21

/-- The least multiple of a unit that is no less than a number. -/
def alignUp (unit n : Nat) : Nat := (n + (unit - 1)) / unit * unit

/-- Rounding up gives no less. -/
theorem le_alignUp {unit : Nat} (h : 0 < unit) (n : Nat) : n ≤ alignUp unit n := by
  unfold alignUp
  have split := Nat.div_add_mod (n + (unit - 1)) unit
  have rest := Nat.mod_lt (n + (unit - 1)) h
  have comm := Nat.mul_comm unit ((n + (unit - 1)) / unit)
  omega

/-- What is rounded up is a multiple of the unit. -/
theorem alignUp_mod (unit n : Nat) : alignUp unit n % unit = 0 := Nat.mul_mod_left _ _

/-- No multiple of the unit that is no less than the number is smaller than the one it is rounded up
to. -/
theorem alignUp_le {unit n m : Nat} (h : 0 < unit) (le : n ≤ m) (aligned : m % unit = 0) :
    alignUp unit n ≤ m := by
  unfold alignUp
  have whole : m = m / unit * unit := by
    have split := Nat.div_add_mod m unit
    have comm := Nat.mul_comm unit (m / unit)
    omega
  have below : (n + (unit - 1)) / unit ≤ m / unit := by
    have bound : n + (unit - 1) < (m / unit + 1) * unit := by
      rw [Nat.add_mul, Nat.one_mul, ← whole]
      omega
    exact Nat.lt_succ_iff.1 ((Nat.div_lt_iff_lt_mul h).2 bound)
  calc (n + (unit - 1)) / unit * unit ≤ m / unit * unit := Nat.mul_le_mul_right unit below
    _ = m := whole.symm

/-- A number of bytes as a word, if it can be asked for. -/
def request? (bytes : Nat) : Option UInt64 :=
  if bytes = 0 ∨ 2 ^ 64 ≤ bytes then none else some (UInt64.ofNat bytes)

/-- The number of bytes to ask for, given the number of elements and of the bytes of each. -/
def request (count : UInt64) (width : Nat) (huge : Bool) : Except Fault UInt64 :=
  match request? (count.toNat * width) with
  | none => .error .invalid
  | some bytes =>
    if huge then
      match request? (alignUp hugePage bytes.toNat) with
      | none => .error .invalid
      | some whole => .ok whole
    else .ok bytes

/-- Ask the system for memory and hand its fault on; `grants` is its answer to a number of bytes. -/
def allocate (grants : UInt64 → Answer) (count : UInt64) (width : Nat) (huge : Bool) :
    Except Fault UInt64 :=
  match request count width huge with
  | .error fault => .error fault
  | .ok bytes =>
    match grants bytes with
    | .error fault => .error fault
    | .ok () => .ok bytes

variable {α : Type}

/-- Map memory and set every element. -/
def create (grants : UInt64 → Answer) (count : UInt64) (width : Nat) (huge : Bool)
    (element : Nat → α) : Except Fault (Mapping α) :=
  match allocate grants count width huge with
  | .error fault => .error fault
  | .ok bytes => .ok ⟨Array.ofFn fun i : Fin count.toNat => element i, bytes⟩

/-- The number of elements. -/
def length (m : Mapping α) : Nat := m.elements.size

/-- Whether there are no elements. -/
def isEmpty (m : Mapping α) : Bool := m.elements.isEmpty

/-- The element at an index. -/
def get? (m : Mapping α) (i : Nat) : Option α := m.elements[i]?

/-- Set the element at an index, if there is one. -/
def set? (m : Mapping α) (i : Nat) (a : α) : Option (Mapping α) :=
  if h : i < m.elements.size then some { m with elements := m.elements.set i a h } else none

/-- Exchange the elements at two indices, if there are both. -/
def swap? (m : Mapping α) (i j : Nat) : Option (Mapping α) :=
  if hi : i < m.elements.size then
    if hj : j < m.elements.size then some { m with elements := m.elements.swap i j hi hj }
    else none
  else none

/-- Turn the order of the elements round. -/
def reverse (m : Mapping α) : Mapping α := { m with elements := m.elements.reverse }

end Mapping

end AccessLatency
