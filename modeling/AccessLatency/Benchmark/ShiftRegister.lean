import AccessLatency.Power

/-!
# The shift register behind random accesses

A random walk takes its indices from a register of 64 bits. A step moves the bits one place down
and, if the lowest bit was set, flips the bits at the taps.
-/

set_option autoImplicit false

namespace AccessLatency

namespace ShiftRegister

/-- The bits that a lowest bit flips when it is moved out. -/
def taps : UInt64 := 2 ^ (63 : Nat) + 2 ^ (62 : Nat) + 2 ^ (60 : Nat) + 2 ^ (59 : Nat)

/-- The state that every walk starts from. -/
def seed : UInt64 := 12345

/-- The state after a step. -/
def step (state : UInt64) : UInt64 := (state >>> 1) ^^^ ((0 - (state &&& 1)) &&& taps)

/-- The state after a number of steps. -/
def steps : Nat → UInt64 → UInt64
  | 0, state => state
  | n + 1, state => steps n (step state)

/-- Steps one after the other add up. -/
theorem steps_add (m n : Nat) (state : UInt64) :
    steps (m + n) state = steps n (steps m state) := by
  induction m generalizing state with
  | zero => rw [Nat.zero_add]; rfl
  | succ m ih => rw [Nat.add_right_comm]; exact ih (step state)

/-- The states after each `stride` steps, `count` of them. -/
def samples (stride : Nat) : Nat → UInt64 → List UInt64
  | 0, _ => []
  | count + 1, state => steps stride state :: samples stride count (steps stride state)

end ShiftRegister

end AccessLatency
