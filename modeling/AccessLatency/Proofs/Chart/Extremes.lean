import AccessLatency.Proofs.Chart.Finite
import Mathlib.Tactic

/-!
# The extremes of some numbers

The range of some numbers runs from one of them to one of them and holds all of them in the total
order. No two numbers share a rank, so there is only one such range, `ofValues?_eq_some_iff`, and it
depends on which numbers there are, not on their order or on how often each occurs.
-/

set_option autoImplicit false

namespace AccessLatency

namespace Range

variable {values others : List Binary64} {r : Range}

/-- A scan that keeps one of two numbers at each step ends at one of the numbers. -/
theorem foldl_mem {choose : Binary64 → Binary64 → Binary64}
    (chooses : ∀ a b, choose a b = a ∨ choose a b = b) (rest : List Binary64) (v : Binary64) :
    rest.foldl choose v ∈ v :: rest := by
  induction rest generalizing v with
  | nil => exact List.mem_cons_self
  | cons u rest ih =>
    rw [List.foldl_cons]
    rcases List.mem_cons.1 (ih (choose v u)) with kept | later
    · rw [kept]
      rcases chooses v u with first | second
      · rw [first]
        exact List.mem_cons_self
      · rw [second]
        exact List.mem_cons_of_mem v List.mem_cons_self
    · exact List.mem_cons_of_mem v (List.mem_cons_of_mem u later)

/-- The ends of a range are values themselves. -/
theorem mem_of_ofValues? (h : ofValues? values = some r) :
    r.lower ∈ values ∧ r.upper ∈ values := by
  cases values with
  | nil => cases h
  | cons v rest =>
    obtain rfl := Option.some.inj h
    constructor
    · apply foldl_mem
      intro a b
      exact ite_eq_or_eq _ a b
    · apply foldl_mem
      intro a b
      exact (ite_eq_or_eq _ b a).symm

/-- The range of some numbers is the one between two of them that holds all of them. -/
theorem ofValues?_eq_some_iff :
    ofValues? values = some r ↔
      r.lower ∈ values ∧ r.upper ∈ values ∧
        ∀ w ∈ values, r.lower.totalRank ≤ w.totalRank ∧ w.totalRank ≤ r.upper.totalRank := by
  constructor
  · intro h
    obtain ⟨lower, upper⟩ := mem_of_ofValues? h
    exact ⟨lower, upper, fun w member => totalRank_of_ofValues? h member⟩
  · rintro ⟨lower, upper, between⟩
    have some : ofValues? values ≠ none := by
      rw [ne_eq, ofValues?_eq_none_iff]
      exact List.ne_nil_of_mem lower
    obtain ⟨found, h⟩ := Option.ne_none_iff_exists'.1 some
    obtain ⟨foundLower, foundUpper⟩ := mem_of_ofValues? h
    have lowerRank : found.lower.totalRank = r.lower.totalRank :=
      le_antisymm (totalRank_of_ofValues? h lower).1 (between _ foundLower).1
    have upperRank : found.upper.totalRank = r.upper.totalRank :=
      le_antisymm (between _ foundUpper).2 (totalRank_of_ofValues? h upper).2
    obtain ⟨least, most⟩ := found
    obtain rfl : least = r.lower := Binary64.totalRank_injective lowerRank
    obtain rfl : most = r.upper := Binary64.totalRank_injective upperRank
    exact h

/-- Lists of the same numbers have the same range. -/
theorem ofValues?_congr (same : ∀ w, w ∈ values ↔ w ∈ others) :
    ofValues? values = ofValues? others := by
  apply Option.ext
  intro r
  rw [ofValues?_eq_some_iff, ofValues?_eq_some_iff]
  simp only [same]

end Range

end AccessLatency
