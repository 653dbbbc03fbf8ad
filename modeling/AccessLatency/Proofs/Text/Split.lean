import AccessLatency.Text.Blank
import Mathlib.Data.List.TakeWhile
import Mathlib.Tactic

/-!
# Splitting and trimming

Pieces joined by a separator that none of them holds are the pieces of the joined text, and joined
texts that may hold it are split one by one, `split_intercalate`. Trimming leaves a text without
blank characters alone and takes nothing else than blank characters away, so that a text is trimmed
to nothing exactly if it is blank. Splitting and trimming go together: the trimmed pieces of a text
are those of the trimmed text, `map_trim_split_trim`, as long as the separator is not blank itself.
-/

set_option autoImplicit false

namespace AccessLatency

namespace Text

/-! ## Splitting -/

section Split

variable {α : Type} [DecidableEq α] {separator : α}

/-- A text without the separator is a single piece. -/
theorem split_of_not_mem {s : List α} (h : separator ∉ s) : split separator s = [s] := by
  induction s with
  | nil => rfl
  | cons c rest ih =>
    obtain ⟨other, none⟩ := List.ne_and_not_mem_of_not_mem_cons h
    rw [split, if_neg other.symm, ih none]
    rfl

/-- A separator divides the pieces before it from those behind it. -/
theorem split_append_separator (s rest : List α) :
    split separator (s ++ separator :: rest) = split separator s ++ split separator rest := by
  induction s with
  | nil =>
    show split separator (separator :: rest) = [] :: split separator rest
    rw [split, if_pos rfl]
  | cons c s ih =>
    rw [List.cons_append, split, split, ih]
    by_cases same : c = separator
    · rw [if_pos same, if_pos same, List.cons_append]
    · rw [if_neg same, if_neg same]
      obtain ⟨piece, others, pieces⟩ := List.exists_cons_of_ne_nil (split_ne_nil separator s)
      rw [pieces]
      rfl

/-- A text without the separator is the first piece in front of one. -/
theorem split_append {s rest : List α} (h : separator ∉ s) :
    split separator (s ++ separator :: rest) = s :: split separator rest := by
  rw [split_append_separator, split_of_not_mem h, List.singleton_append]

/-- A text of pieces that each end in the separator has these pieces and, behind the last
separator, an empty one. -/
theorem split_flatMap_append {pieces : List (List α)} (h : ∀ piece ∈ pieces, separator ∉ piece) :
    split separator (pieces.flatMap fun piece => piece ++ [separator]) = pieces ++ [[]] := by
  induction pieces with
  | nil => rfl
  | cons piece rest ih =>
    rw [List.flatMap_cons, List.append_assoc, List.singleton_append,
      split_append (h piece (by simp)), ih fun p hp => h p (List.mem_cons_of_mem piece hp),
      List.cons_append]

omit [DecidableEq α] in
/-- Pieces with separators between them, the first piece apart. -/
theorem flatten_intersperse_cons (s : List α) (pieces : List (List α)) :
    ((s :: pieces).intersperse [separator]).flatten =
      s ++ pieces.flatMap fun piece => separator :: piece := by
  induction pieces generalizing s with
  | nil => simp
  | cons piece pieces ih =>
    rw [List.intersperse_cons_cons, List.flatten_cons, List.flatten_cons, ih, List.flatMap_cons]
    simp

/-- Pieces joined by a separator that none of them holds. -/
theorem split_joined {s : List α} {pieces : List (List α)} (first : separator ∉ s)
    (others : ∀ piece ∈ pieces, separator ∉ piece) :
    split separator (s ++ pieces.flatMap fun piece => separator :: piece) = s :: pieces := by
  induction pieces generalizing s with
  | nil => simpa using split_of_not_mem first
  | cons piece pieces ih =>
    rw [List.flatMap_cons, List.cons_append, split_append first,
      ih (others piece (by simp)) fun p hp => others p (List.mem_cons_of_mem piece hp)]

/-- The pieces of joined texts are those of each text, in order. -/
theorem split_intercalate {texts : List (List α)} (h : texts ≠ []) :
    split separator ([separator].intercalate texts) = texts.flatMap (split separator) := by
  match texts, h with
  | [s], _ => rw [List.intercalate_singleton, List.flatMap_singleton]
  | s :: next :: rest, _ =>
    rw [List.intercalate_cons_cons, List.append_assoc, List.singleton_append,
      split_append_separator, split_intercalate (List.cons_ne_nil next rest)]
    rfl

omit [DecidableEq α] in
/-- One of several joined texts stands between a front and a back that do not depend on it. -/
theorem exists_intercalate (separator : α) (left right : List (List α)) :
    ∃ front back, ∀ s,
      [separator].intercalate (left ++ s :: right) = front ++ (s ++ back) := by
  induction left with
  | nil =>
    refine ⟨[], right.flatMap fun piece => separator :: piece, fun s => ?_⟩
    exact flatten_intersperse_cons s right
  | cons piece left ih =>
    obtain ⟨front, back, joined⟩ := ih
    refine ⟨piece ++ separator :: front, back, fun s => ?_⟩
    obtain ⟨next, others, rest⟩ := List.exists_cons_of_ne_nil (l := left ++ s :: right) (by simp)
    rw [List.cons_append, rest, List.intercalate_cons_cons, ← rest, joined]
    simp

/-- A character behind a text that is not the separator goes to the last piece. -/
theorem split_concat {s : List α} {c : α} (h : c ≠ separator) :
    ∃ front last, split separator s = front ++ [last] ∧
      split separator (s ++ [c]) = front ++ [last ++ [c]] := by
  induction s with
  | nil => exact ⟨[], [], rfl, by simp [split, h]⟩
  | cons d s ih =>
    obtain ⟨front, last, pieces, more⟩ := ih
    rw [List.cons_append, split, split, pieces, more]
    by_cases same : d = separator
    · rw [if_pos same, if_pos same]
      exact ⟨[] :: front, last, rfl, rfl⟩
    · rw [if_neg same, if_neg same]
      cases front with
      | nil => exact ⟨[], d :: last, rfl, rfl⟩
      | cons piece front => exact ⟨(d :: piece) :: front, last, rfl, rfl⟩

end Split

/-! ## Trimming -/

/-- A digit is not blank. -/
theorem isBlank_of_isDigit {c : Char} (h : c.isDigit = true) : isBlank c = false := by
  have range : 48 ≤ c.val.toNat ∧ c.val.toNat ≤ 57 := by
    simpa [Char.isDigit, UInt32.le_iff_toNat_le] using h
  unfold isBlank
  simp only [Bool.or_eq_false_iff, Bool.and_eq_false_iff, decide_eq_false_iff_not,
    beq_eq_false_iff_ne]
  omega

/-- A text that neither begins nor ends with a blank character is left alone. -/
theorem trim_of_ends {s : List Char} (front : ∀ c ∈ s.head?, isBlank c = false)
    (back : ∀ c ∈ s.getLast?, isBlank c = false) : trim s = s := by
  have same : ∀ t : List Char, (∀ c ∈ t.head?, isBlank c = false) → t.dropWhile isBlank = t := by
    intro t ht
    cases t with
    | nil => rfl
    | cons c rest => simp [ht c (by simp)]
  unfold trim trimLeft trimRight
  rw [same s front, same s.reverse (by simpa using back), List.reverse_reverse]

/-- A text without blank characters is not changed by trimming. -/
theorem trim_eq_self {s : List Char} (h : ∀ c ∈ s, isBlank c = false) : trim s = s :=
  trim_of_ends (fun c hc => h c (List.mem_of_mem_head? hc))
    fun c hc => h c (List.mem_of_mem_getLast? hc)

/-- A blank character in front of a text is trimmed away. -/
theorem trim_cons {c : Char} (h : isBlank c = true) (s : List Char) : trim (c :: s) = trim s := by
  unfold trim trimLeft
  rw [List.dropWhile_cons_of_pos h]

/-- A blank character behind a text is trimmed away. -/
theorem trim_concat {c : Char} (h : isBlank c = true) (s : List Char) :
    trim (s ++ [c]) = trim s := by
  unfold trim trimLeft trimRight
  rw [List.dropWhile_append]
  split
  · rename_i blank
    rw [List.isEmpty_iff.1 blank, List.dropWhile_cons_of_pos h, List.dropWhile_nil]
  · rw [List.reverse_append, List.reverse_singleton, List.singleton_append,
      List.dropWhile_cons_of_pos h]

/-- A text is trimmed to nothing exactly if it is blank. -/
theorem trim_eq_nil_iff {s : List Char} : trim s = [] ↔ ∀ c ∈ s, isBlank c = true := by
  constructor
  · intro none
    unfold trim trimRight at none
    have none := List.dropWhile_eq_nil_iff.1 (List.reverse_eq_nil_iff.1 none)
    have left : trimLeft s = [] := by
      by_contra some
      obtain ⟨c, rest, cons⟩ := List.exists_cons_of_ne_nil some
      have blank := none c (by simp [cons])
      have first := List.head_dropWhile_not isBlank (l := s) some
      unfold trimLeft at cons
      simp only [cons, List.head_cons] at first
      rw [blank] at first
      cases first
    exact List.dropWhile_eq_nil_iff.1 left
  · intro blank
    have left : trimLeft s = [] := List.dropWhile_eq_nil_iff.2 blank
    unfold trim
    rw [left]
    rfl

/-- Trimming takes blank characters off both ends of a text, and nothing else. -/
theorem exists_eq_append_trim (s : List Char) :
    ∃ front back, s = front ++ (trim s ++ back) ∧ (∀ c ∈ front, isBlank c = true) ∧
      ∀ c ∈ back, isBlank c = true := by
  refine ⟨s.takeWhile isBlank, ((trimLeft s).reverse.takeWhile isBlank).reverse, ?_, ?_, ?_⟩
  · unfold trim trimRight
    rw [← List.reverse_append, List.takeWhile_append_dropWhile, List.reverse_reverse]
    exact List.takeWhile_append_dropWhile.symm
  · intro c member
    exact List.mem_takeWhile_imp member
  · intro c member
    exact List.mem_takeWhile_imp (List.mem_reverse.1 member)

/-- Blank characters around a text do not count. -/
theorem trim_append_of_blank {front back : List Char} (s : List Char)
    (hfront : ∀ c ∈ front, isBlank c = true) (hback : ∀ c ∈ back, isBlank c = true) :
    trim (front ++ (s ++ back)) = trim s := by
  induction front with
  | nil =>
    rw [List.nil_append]
    induction back using List.reverseRecOn with
    | nil => rw [List.append_nil]
    | append_singleton back c ih =>
      rw [← List.append_assoc, trim_concat (hback c (by simp))]
      exact ih fun d member => hback d (List.mem_append_left _ member)
  | cons c front ih =>
    rw [List.cons_append, trim_cons (hfront c List.mem_cons_self)]
    exact ih fun d member => hfront d (List.mem_cons_of_mem c member)

/-! ## Trimmed pieces -/

section Pieces

variable {separator : Char}

/-- A blank character in front of a text does not change its trimmed pieces. -/
theorem map_trim_split_cons (solid : isBlank separator = false) {c : Char} (h : isBlank c = true)
    (s : List Char) :
    (split separator (c :: s)).map trim = (split separator s).map trim := by
  have other : c ≠ separator := by
    rintro rfl
    rw [h] at solid
    cases solid
  rw [split, if_neg other]
  obtain ⟨piece, rest, pieces⟩ := List.exists_cons_of_ne_nil (split_ne_nil separator s)
  rw [pieces, List.modifyHead_cons, List.map_cons, List.map_cons, trim_cons h]

/-- A blank character behind a text does not change its trimmed pieces. -/
theorem map_trim_split_concat (solid : isBlank separator = false) {c : Char}
    (h : isBlank c = true) (s : List Char) :
    (split separator (s ++ [c])).map trim = (split separator s).map trim := by
  have other : c ≠ separator := by
    rintro rfl
    rw [h] at solid
    cases solid
  obtain ⟨front, last, pieces, more⟩ := split_concat (s := s) other
  rw [pieces, more, List.map_append, List.map_append, List.map_singleton, List.map_singleton,
    trim_concat h]

/-- The trimmed pieces do not depend on the blank characters in front of a text. -/
theorem map_trim_split_trimLeft (solid : isBlank separator = false) (s : List Char) :
    (split separator (trimLeft s)).map trim = (split separator s).map trim := by
  induction s with
  | nil => rfl
  | cons c s ih =>
    unfold trimLeft at ih ⊢
    cases h : isBlank c with
    | true => rw [List.dropWhile_cons_of_pos h, ih, map_trim_split_cons solid h]
    | false => rw [List.dropWhile_cons_of_neg (by rw [h]; decide)]

/-- The trimmed pieces do not depend on the blank characters behind a text. -/
theorem map_trim_split_trimRight (solid : isBlank separator = false) (s : List Char) :
    (split separator (trimRight s)).map trim = (split separator s).map trim := by
  induction s using List.reverseRecOn with
  | nil => rfl
  | append_singleton s c ih =>
    unfold trimRight at ih ⊢
    rw [List.reverse_append, List.reverse_singleton, List.singleton_append]
    cases h : isBlank c with
    | true => rw [List.dropWhile_cons_of_pos h, ih, map_trim_split_concat solid h]
    | false =>
      rw [List.dropWhile_cons_of_neg (by rw [h]; decide), List.reverse_cons,
        List.reverse_reverse]

/-- The trimmed pieces of a text are those of the trimmed text. -/
theorem map_trim_split_trim (solid : isBlank separator = false) (s : List Char) :
    (split separator (trim s)).map trim = (split separator s).map trim := by
  change (split separator (trimRight (trimLeft s))).map trim = _
  rw [map_trim_split_trimRight solid, map_trim_split_trimLeft solid]

/-- Blank characters around a text do not count for its trimmed pieces either. -/
theorem map_trim_split_append_of_blank (solid : isBlank separator = false)
    {front back : List Char} (s : List Char) (hfront : ∀ c ∈ front, isBlank c = true)
    (hback : ∀ c ∈ back, isBlank c = true) :
    (split separator (front ++ (s ++ back))).map trim = (split separator s).map trim := by
  rw [← map_trim_split_trim solid, trim_append_of_blank s hfront hback, map_trim_split_trim solid]

end Pieces

end Text

end AccessLatency
