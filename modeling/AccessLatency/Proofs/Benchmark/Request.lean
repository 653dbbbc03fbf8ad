import AccessLatency.Benchmark.Mapping
import Mathlib.Order.Bounds.Basic
import Mathlib.Tactic

/-!
# The number of bytes that is asked for

An array needs as many bytes as its elements take. It is asked for as many, or on huge pages for the
least number of whole pages that they fit on; and it is not asked for at all exactly if no bytes are
needed, or if a word cannot count what would be asked for. `request_eq` says what is computed,
`takes_iff` and `unrequestable_iff` what that means.
-/

set_option autoImplicit false

namespace AccessLatency

namespace Mapping

/-- What is asked for if some bytes are needed: as many, or on huge pages the least number of whole
pages that is no less. -/
def Takes (needed : Nat) (huge : Bool) (bytes : Nat) : Prop :=
  if huge then IsLeast {n | needed ≤ n ∧ hugePage ∣ n} bytes else bytes = needed

/-- No bytes are needed, or more than a word can count, or on huge pages more than the whole pages
that a word can count. -/
def Unrequestable (needed : Nat) (huge : Bool) : Prop :=
  needed = 0 ∨ 2 ^ 64 ≤ needed ∨ huge = true ∧ ∀ n, needed ≤ n → hugePage ∣ n → 2 ^ 64 ≤ n

variable {needed bytes : Nat} {huge : Bool}

/-! ## Multiples -/

/-- Rounding up gives the least multiple of the unit that is enough. -/
theorem isLeast_alignUp {unit : Nat} (pos : 0 < unit) (n : Nat) :
    IsLeast {m | n ≤ m ∧ unit ∣ m} (alignUp unit n) := by
  constructor
  · exact ⟨le_alignUp pos n, Nat.dvd_of_mod_eq_zero (alignUp_mod unit n)⟩
  · rintro m ⟨above, multiple⟩
    exact alignUp_le pos above (Nat.mod_eq_zero_of_dvd multiple)

/-- The whole units that are in a number make up the greatest multiple that is no more than it. -/
theorem isGreatest_div_mul (unit n : Nat) : IsGreatest {m | unit ∣ m ∧ m ≤ n} (n / unit * unit) := by
  constructor
  · exact ⟨Nat.dvd_mul_left unit (n / unit), Nat.div_mul_le_self n unit⟩
  · rintro m ⟨⟨factor, rfl⟩, below⟩
    rcases Nat.eq_zero_or_pos unit with rfl | pos
    · simp
    · rw [Nat.mul_comm] at below ⊢
      exact Nat.mul_le_mul_right unit ((Nat.le_div_iff_mul_le pos).2 below)

/-- A huge page has bytes. -/
theorem hugePage_pos : 0 < hugePage := Nat.two_pow_pos 21

/-- What is asked for, as it is computed. -/
def demand (needed : Nat) (huge : Bool) : Nat := if huge then alignUp hugePage needed else needed

/-- No less is asked for than is needed. -/
theorem le_demand (needed : Nat) (huge : Bool) : needed ≤ demand needed huge := by
  unfold demand
  split
  · exact le_alignUp hugePage_pos needed
  · exact Nat.le_refl needed

/-- What is asked for is what is computed. -/
theorem takes_iff : Takes needed huge bytes ↔ bytes = demand needed huge := by
  unfold Takes demand
  cases huge with
  | false => simp
  | true =>
    rw [if_pos rfl, if_pos rfl]
    have least := isLeast_alignUp hugePage_pos needed
    constructor
    · intro takes
      exact takes.unique least
    · rintro rfl
      exact least

/-- What is computed is what is asked for. -/
theorem takes_demand (needed : Nat) (huge : Bool) : Takes needed huge (demand needed huge) :=
  takes_iff.2 rfl

/-- What is asked for is enough. -/
theorem Takes.le (takes : Takes needed huge bytes) : needed ≤ bytes := by
  obtain rfl := takes_iff.1 takes
  exact le_demand needed huge

/-- Bytes cannot be asked for exactly if none are needed, or if a word cannot count what is
computed. -/
theorem unrequestable_iff :
    Unrequestable needed huge ↔ needed = 0 ∨ 2 ^ 64 ≤ demand needed huge := by
  have below := le_demand needed huge
  constructor
  · rintro (nothing | much | ⟨rfl, pages⟩)
    · exact .inl nothing
    · exact .inr (Nat.le_trans much below)
    · obtain ⟨spans, multiple⟩ := (isLeast_alignUp hugePage_pos needed).1
      exact .inr (pages _ spans multiple)
  · rintro (nothing | much)
    · exact .inl nothing
    · cases huge with
      | false => exact .inr (.inl much)
      | true =>
        refine .inr (.inr ⟨rfl, ?_⟩)
        intro n above multiple
        exact Nat.le_trans much ((isLeast_alignUp hugePage_pos needed).2 ⟨above, multiple⟩)

/-! ## Requests -/

/-- A number of bytes that a word can count is asked for, if it is not zero. -/
theorem request?_of_fits (positive : bytes ≠ 0) (fits : bytes < 2 ^ 64) :
    request? bytes = some (UInt64.ofNat bytes) := by
  unfold request?
  rw [if_neg (by omega)]

/-- No bytes, or more than a word can count, are not asked for. -/
theorem request?_of_not_fits (refused : bytes = 0 ∨ 2 ^ 64 ≤ bytes) : request? bytes = none := by
  unfold request?
  rw [if_pos refused]

/-- A request is the computed number of bytes, unless none are needed or a word cannot count them.
On huge pages the product is checked before it is rounded up, which makes no difference. -/
theorem request_eq (count : UInt64) (width : Nat) (huge : Bool) :
    request count width huge =
      if count.toNat * width = 0 ∨ 2 ^ 64 ≤ demand (count.toNat * width) huge then .error .invalid
      else .ok (UInt64.ofNat (demand (count.toNat * width) huge)) := by
  unfold request
  generalize count.toNat * width = needed
  have below := le_demand needed huge
  by_cases fits : needed ≠ 0 ∧ needed < 2 ^ 64
  · rw [request?_of_fits fits.1 fits.2]
    dsimp only
    cases huge with
    | false =>
      rw [if_neg Bool.false_ne_true, if_neg (by unfold demand; simp; omega)]
      rfl
    | true =>
      -- The product is read back from the word that it was found to be.
      rw [if_pos rfl, UInt64.toNat_ofNat_of_lt' fits.2]
      by_cases whole : alignUp hugePage needed < 2 ^ 64
      · have positive : alignUp hugePage needed ≠ 0 := by
          have spans := le_alignUp hugePage_pos needed
          omega
        rw [request?_of_fits positive whole, if_neg (by unfold demand; simp; omega)]
        rfl
      · rw [request?_of_not_fits (.inr (Nat.not_lt.1 whole)),
          if_pos (.inr (Nat.not_lt.1 whole))]
  · rw [request?_of_not_fits (by omega), if_pos (by omega)]

/-- Bytes that cannot be asked for are an invalid request. -/
theorem request_of_unrequestable {count : UInt64} {width : Nat}
    (refused : Unrequestable (count.toNat * width) huge) :
    request count width huge = .error .invalid := by
  rw [request_eq, if_pos (unrequestable_iff.1 refused)]

/-- What can be asked for is asked for. -/
theorem exists_request {count : UInt64} {width : Nat}
    (requestable : ¬ Unrequestable (count.toNat * width) huge) :
    ∃ word, Takes (count.toNat * width) huge word.toNat ∧ request count width huge = .ok word := by
  rw [unrequestable_iff] at requestable
  have fits : demand (count.toNat * width) huge < 2 ^ 64 := by omega
  refine ⟨UInt64.ofNat (demand (count.toNat * width) huge), ?_, ?_⟩
  · rw [UInt64.toNat_ofNat_of_lt' fits]
    exact takes_demand _ _
  · rw [request_eq, if_neg requestable]

variable {α : Type}

/-- A new mapping: the elements of an array, in so many bytes. -/
def filled (count bytes : UInt64) (element : Nat → α) : Mapping α :=
  ⟨Array.ofFn fun i : Fin count.toNat => element i, bytes⟩

/-- If bytes can be asked for, there is a mapping exactly if the system grants them, and otherwise the
fault is the system's. -/
theorem create_of_request {count bytes : UInt64} {width : Nat}
    (asked : request count width huge = .ok bytes) (grants : UInt64 → Answer) (element : Nat → α) :
    create grants count width huge element =
      (grants bytes).map fun _ => filled count bytes element := by
  unfold create allocate
  rw [asked]
  dsimp only
  cases grants bytes <;> rfl

/-- A system that does not itself find any request invalid. -/
def NeverInvalid (grants : UInt64 → Answer) : Prop := ∀ bytes, grants bytes ≠ .error .invalid

/-- On a system that does not itself find requests invalid, a mapping is invalid exactly if no bytes
can be asked for. -/
theorem create_eq_invalid_iff {grants : UInt64 → Answer} (valid : NeverInvalid grants)
    (count : UInt64) (width : Nat) (huge : Bool) (element : Nat → α) :
    create grants count width huge element = .error .invalid ↔
      Unrequestable (count.toNat * width) huge := by
  constructor
  · intro failed
    by_contra requestable
    obtain ⟨bytes, -, asked⟩ := exists_request requestable
    rw [create_of_request asked] at failed
    cases answer : grants bytes with
    | error why =>
      rw [answer] at failed
      cases failed
      exact valid bytes answer
    | ok granted =>
      rw [answer] at failed
      cases failed
  · intro refused
    unfold create allocate
    rw [request_of_unrequestable refused]

end Mapping

end AccessLatency
