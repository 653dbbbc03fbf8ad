import Mathlib.Data.List.Infix
import Mathlib.Tactic

/-!
# Occurrences

How often a text occurs in another, counted at every place of it. A text `Lacks` another if none of
its places begins an occurrence, whatever follows the text; then it adds nothing to the count. Texts
that lack another stay so when they are put together, so that a long text is counted part by part.
-/

set_option autoImplicit false

namespace AccessLatency

namespace Text

variable {α : Type}

/-- The number of places at which a text occurs in another. -/
def occurrences [DecidableEq α] (needle s : List α) : Nat := s.tails.countP needle.isPrefixOf

/-- No place of the text is one at which the other occurs, whatever follows the text. -/
def Lacks (needle s : List α) : Prop :=
  ∀ t ∈ s.tails, t ≠ [] → ¬ needle <+: t ∧ ¬ t <+: needle

instance [DecidableEq α] (needle s : List α) : Decidable (Lacks needle s) :=
  inferInstanceAs (Decidable (∀ t ∈ s.tails, _))

variable {needle s t : List α}

/-- A text lacks another if it neither begins with it nor is the beginning of it, and its rest lacks
it. -/
theorem lacks_cons {c : α} :
    Lacks needle (c :: s) ↔ (¬ needle <+: c :: s ∧ ¬ c :: s <+: needle) ∧ Lacks needle s := by
  simp [Lacks]

/-- A text that lacks another does not begin with it, whatever follows. -/
theorem Lacks.not_prefix_append {c : α} (h : Lacks needle (c :: s)) (rest : List α) :
    ¬ needle <+: c :: s ++ rest := by
  obtain ⟨⟨whole, part⟩, -⟩ := lacks_cons.1 h
  intro found
  rcases List.prefix_or_prefix_of_prefix found (List.prefix_append (c :: s) rest) with h | h
  · exact whole h
  · exact part h

/-- Texts that lack another lack it when put together. -/
theorem Lacks.append (hs : Lacks needle s) (ht : Lacks needle t) : Lacks needle (s ++ t) := by
  induction s with
  | nil => exact ht
  | cons c s ih =>
    obtain ⟨⟨-, part⟩, rest⟩ := lacks_cons.1 hs
    rw [List.cons_append, lacks_cons]
    refine ⟨⟨hs.not_prefix_append t, ?_⟩, ih rest⟩
    intro found
    exact part ((List.prefix_append (c :: s) t).trans found)

/-- A text made of parts that lack another lacks it. -/
theorem lacks_flatMap {β : Type} {l : List β} {f : β → List α} (h : ∀ b ∈ l, Lacks needle (f b)) :
    Lacks needle (l.flatMap f) := by
  induction l with
  | nil => simp [Lacks]
  | cons b l ih =>
    rw [List.flatMap_cons]
    exact (h b (by simp)).append (ih fun d hd => h d (List.mem_cons_of_mem b hd))

/-- A text without the first character of another lacks it. -/
theorem lacks_of_not_mem {c : α} (h : c ∉ s) : Lacks (c :: needle) s := by
  induction s with
  | nil => simp [Lacks]
  | cons d s ih =>
    obtain ⟨other, none⟩ := List.ne_and_not_mem_of_not_mem_cons h
    rw [lacks_cons]
    refine ⟨⟨?_, ?_⟩, ih none⟩
    · intro found
      exact other (List.cons_prefix_cons.1 found).1
    · intro found
      exact other (List.cons_prefix_cons.1 found).1.symm

variable [DecidableEq α]

/-- A character in front of a text adds an occurrence if one begins with it. -/
theorem occurrences_cons (c : α) :
    occurrences needle (c :: s) =
      occurrences needle s + if needle <+: c :: s then 1 else 0 := by
  simp [occurrences, List.countP_cons]

/-- What lacks a text adds no occurrence of it. -/
theorem Lacks.occurrences_append (h : Lacks needle s) (rest : List α) :
    occurrences needle (s ++ rest) = occurrences needle rest := by
  induction s with
  | nil => rfl
  | cons c s ih =>
    have none : ¬ needle <+: c :: (s ++ rest) := h.not_prefix_append rest
    have ih := ih (lacks_cons.1 h).2
    rw [List.cons_append, occurrences_cons, if_neg none, ih, Nat.add_zero]

/-- A text whose first character it does not repeat occurs once where it stands. -/
theorem occurrences_self_append {c : α} (h : c ∉ needle) (rest : List α) :
    occurrences (c :: needle) (c :: needle ++ rest) = occurrences (c :: needle) rest + 1 := by
  have here : c :: needle <+: c :: (needle ++ rest) := List.prefix_append (c :: needle) rest
  rw [List.cons_append, occurrences_cons, if_pos here, (lacks_of_not_mem h).occurrences_append]

end Text

end AccessLatency
