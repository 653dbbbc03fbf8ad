import AccessLatency.Binary64.Basic

/-!
# Arithmetic and order

The four operations compute the exact result and round it once. An operation that has no result
gives a number that is not a number with the sign set; one that is given such a number hands on the
first of them, with a quiet payload.

There are two orders. `lt` and `le` compare values: zero equals zero whatever the signs, and what
is not a number is unordered. `totalRank` ranks all numbers, telling the zeros apart and placing
what is not a number beyond the infinity of its sign, by its payload; `totalRank_injective` says
that it is an order of the numbers themselves.
-/

set_option autoImplicit false

namespace AccessLatency

namespace Binary64

/-- A finite number as a whole number of quanta, with its sign. -/
def signedQuanta (negative : Bool) (m : Magnitude) : Int :=
  if negative then -(m.quanta : Int) else (m.quanta : Int)

/-- The number with the opposite sign. -/
def neg : Binary64 → Binary64
  | .nan s p => .nan (!s) p
  | .infinity s => .infinity (!s)
  | .finite s m => .finite (!s) m

/-- The absolute value. -/
def abs : Binary64 → Binary64
  | .nan _ p => .nan false p
  | .infinity _ => .infinity false
  | .finite _ m => .finite false m

/-- The result of an operation that has none. -/
def undefined : Binary64 := .nan true

/-- The number nearest to a whole number of quanta; `zeroSign` is the sign of an exact zero. -/
def ofQuanta (zeroSign : Bool) (q : Int) : Binary64 :=
  if q = 0 then zero zeroSign else ofQuotient (decide (q < 0)) q.natAbs 1

/-- The rounded sum. Numbers that cancel give positive zero; two negative zeros give one. -/
def add : Binary64 → Binary64 → Binary64
  | .nan s p, _ => .nan s p.quieted
  | _, .nan s p => .nan s p.quieted
  | .infinity s, .infinity t => if s = t then .infinity s else undefined
  | .infinity s, .finite _ _ => .infinity s
  | .finite _ _, .infinity t => .infinity t
  | .finite s m, .finite t n => ofQuanta (s && t) (signedQuanta s m + signedQuanta t n)

/-- The rounded difference. -/
def sub : Binary64 → Binary64 → Binary64
  | .nan s p, _ => .nan s p.quieted
  | _, .nan s p => .nan s p.quieted
  | a, b => add a (neg b)

/-- The rounded product. -/
def mul : Binary64 → Binary64 → Binary64
  | .nan s p, _ => .nan s p.quieted
  | _, .nan s p => .nan s p.quieted
  | .infinity s, .infinity t => .infinity (s ^^ t)
  | .infinity s, .finite t n => if n.quanta = 0 then undefined else .infinity (s ^^ t)
  | .finite s m, .infinity t => if m.quanta = 0 then undefined else .infinity (s ^^ t)
  | .finite s m, .finite t n => ofQuotient (s ^^ t) (m.quanta * n.quanta) unit

/-- The rounded quotient. A nonzero number over zero is infinite. -/
def div : Binary64 → Binary64 → Binary64
  | .nan s p, _ => .nan s p.quieted
  | _, .nan s p => .nan s p.quieted
  | .infinity _, .infinity _ => undefined
  | .infinity s, .finite t _ => .infinity (s ^^ t)
  | .finite s _, .infinity t => zero (s ^^ t)
  | .finite s m, .finite t n =>
    if n.quanta = 0 then
      if m.quanta = 0 then undefined else .infinity (s ^^ t)
    else ofQuotient (s ^^ t) (m.quanta * unit) n.quanta

/-- The place of a number among the values: its quanta, with the infinities one step beyond all
finite numbers, and nothing for what is not a number. -/
def value? : Binary64 → Option Int
  | .nan _ _ => none
  | .infinity s => some (if s then -(quantaLimit : Int) else quantaLimit)
  | .finite s m => some (signedQuanta s m)

/-- Whether the first value is less than the second. -/
def lt (a b : Binary64) : Bool :=
  match a.value?, b.value? with
  | some x, some y => decide (x < y)
  | _, _ => false

/-- Whether the first value is at most the second. -/
def le (a b : Binary64) : Bool :=
  match a.value?, b.value? with
  | some x, some y => decide (x ≤ y)
  | _, _ => false

/-- The larger of two values; what is not a number gives way to the other. -/
def max (a b : Binary64) : Binary64 :=
  if a.isNaN then b
  else if b.isNaN then a
  else if lt a b then b else a

/-- The distance of a number from zero in the total order. -/
def totalDistance : Binary64 → Nat
  | .nan _ p => quantaLimit + p.bits
  | .infinity _ => quantaLimit
  | .finite _ m => m.quanta

/-- The rank of a number in the total order: negative zero stands just below positive zero. -/
def totalRank (v : Binary64) : Int :=
  if v.isNegative then -(v.totalDistance : Int) - 1 else (v.totalDistance : Int)

/-- Whether the first number comes no later than the second in the total order. -/
def totalLe (a b : Binary64) : Bool := decide (a.totalRank ≤ b.totalRank)

/-- Numbers of one rank are the same number. -/
theorem totalRank_injective {a b : Binary64} (h : a.totalRank = b.totalRank) : a = b := by
  have sign : a.isNegative = b.isNegative := by
    unfold totalRank at h
    cases ha : a.isNegative <;> cases hb : b.isNegative <;> simp [ha, hb] at h ⊢ <;> omega
  have distance : a.totalDistance = b.totalDistance := by
    unfold totalRank at h
    rw [sign] at h
    cases hb : b.isNegative <;> simp [hb] at h <;> omega
  clear h
  cases a with
  | nan s p =>
    cases b with
    | nan t q =>
      obtain ⟨p, _, _⟩ := p
      obtain ⟨q, _, _⟩ := q
      simp only [isNegative, totalDistance, Nat.add_left_cancel_iff] at sign distance
      subst sign distance
      rfl
    | infinity t => have := p.pos; simp only [totalDistance] at distance; omega
    | finite t n => have := n.bounded; simp only [totalDistance] at distance; omega
  | infinity s =>
    cases b with
    | nan t q => have := q.pos; simp only [totalDistance] at distance; omega
    | infinity t => simpa [isNegative] using sign
    | finite t n => have := n.bounded; simp only [totalDistance] at distance; omega
  | finite s m =>
    cases b with
    | nan t q => have := m.bounded; simp only [totalDistance] at distance; omega
    | infinity t => have := m.bounded; simp only [totalDistance] at distance; omega
    | finite t n =>
      obtain ⟨m, _, _⟩ := m
      obtain ⟨n, _, _⟩ := n
      simp only [isNegative, totalDistance] at sign distance
      subst sign distance
      rfl

/-- Whether a number is a whole number; the infinities are not. -/
def isWhole : Binary64 → Bool
  | .finite _ m => m.quanta % unit == 0
  | _ => false

/-- The largest number of 64 bits without a sign. -/
def wordMax : Nat := 2 ^ 64 - 1

/-- The number as a word, the fraction cut off: negative numbers and what is not a number give
zero, and what is too large gives the largest word. -/
def toWord : Binary64 → UInt64
  | .nan _ _ => 0
  | .infinity s => if s then 0 else UInt64.ofNat wordMax
  | .finite s m => if s then 0 else UInt64.ofNat (min (m.quanta / unit) wordMax)

/-- The least word that is no smaller than the number, where there is one, and the largest word
where there is none; zero for what is not a number. -/
def ceilWord : Binary64 → UInt64
  | .nan _ _ => 0
  | .infinity s => if s then 0 else UInt64.ofNat wordMax
  | .finite s m => if s then 0 else UInt64.ofNat (min ((m.quanta + (unit - 1)) / unit) wordMax)

/-- The number nearest to a word. -/
def ofWord (w : UInt64) : Binary64 := ofNat w.toNat

end Binary64

end AccessLatency
