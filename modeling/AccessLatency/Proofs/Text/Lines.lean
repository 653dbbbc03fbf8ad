import AccessLatency.Proofs.Text.Split
import Mathlib.Tactic

/-!
# Lines

A line ends with a line feed, and a carriage return in front of the line feed belongs to that end.
Behind the last line feed there is a line only if something stands there. The beginning of a text
with its first lines is cut off by `firstLines`, and `lines_firstLines` says that these are its
lines.
-/

set_option autoImplicit false

namespace AccessLatency

namespace Text

/-- A line without a carriage return in front of its end. -/
def withoutReturn (line : List Char) : List Char :=
  if line.getLast? = some '\r' then line.dropLast else line

/-- The lines that the pieces between line feeds are. -/
def linesOf : List (List Char) → List (List Char)
  | [] => []
  | [last] => if last = [] then [] else [last]
  | piece :: next :: rest => withoutReturn piece :: linesOf (next :: rest)

/-- The lines of a text, without their ends. -/
def lines (s : List Char) : List (List Char) := linesOf (split '\n' s)

/-- The first lines of a text with their ends. -/
def firstLines : ℕ → List Char → List Char
  | 0, _ => []
  | _ + 1, [] => []
  | count + 1, c :: rest =>
    if c = '\n' then c :: firstLines count rest else c :: firstLines (count + 1) rest

/-- A text without a line feed is a single line, or none if it is empty. -/
theorem lines_of_not_mem {s : List Char} (h : '\n' ∉ s) :
    lines s = if s = [] then [] else [s] := by
  unfold lines
  rw [split_of_not_mem h, linesOf]

/-- A line feed ends the first line, and the others follow it. -/
theorem lines_append {line : List Char} (h : '\n' ∉ line) (rest : List Char) :
    lines (line ++ '\n' :: rest) = withoutReturn line :: lines rest := by
  unfold lines
  rw [split_append h]
  obtain ⟨next, others, pieces⟩ := List.exists_cons_of_ne_nil (split_ne_nil '\n' rest)
  rw [pieces, linesOf]

/-- A text without a line feed is within its first line. -/
theorem firstLines_of_not_mem {s : List Char} (h : '\n' ∉ s) (count : ℕ) :
    firstLines (count + 1) s = s := by
  induction s with
  | nil => rfl
  | cons c rest ih =>
    obtain ⟨other, none⟩ := List.ne_and_not_mem_of_not_mem_cons h
    rw [firstLines, if_neg other.symm, ih none]

/-- The first lines are the first line with its end, and the first of the rest. -/
theorem firstLines_append {line : List Char} (h : '\n' ∉ line) (count : ℕ) (rest : List Char) :
    firstLines (count + 1) (line ++ '\n' :: rest) = line ++ '\n' :: firstLines count rest := by
  induction line with
  | nil => exact if_pos rfl
  | cons c line ih =>
    obtain ⟨other, none⟩ := List.ne_and_not_mem_of_not_mem_cons h
    rw [List.cons_append, firstLines, if_neg other.symm, ih none, List.cons_append]

/-- The beginning of a text that is cut off has the first of its lines. -/
theorem lines_firstLines (count : ℕ) (s : List Char) :
    lines (firstLines count s) = (lines s).take count := by
  induction count generalizing s with
  | zero =>
    rw [firstLines, List.take_zero]
    rfl
  | succ count ih =>
    by_cases several : '\n' ∈ s
    · obtain ⟨line, rest, rfl, none⟩ := List.eq_append_cons_of_mem several
      rw [firstLines_append none, lines_append none, lines_append none, List.take_succ_cons, ih]
    · have single : (lines s).length ≤ count + 1 := by
        rw [lines_of_not_mem several]
        split <;> simp
      rw [firstLines_of_not_mem several, List.take_of_length_le single]

end Text

end AccessLatency
