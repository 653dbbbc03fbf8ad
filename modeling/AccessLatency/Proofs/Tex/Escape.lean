import AccessLatency.Proofs.Tex.Groups
import AccessLatency.Proofs.Text.Decode
import Mathlib.Tactic

/-!
# Escaped texts

`Tex.escape` writes ten characters as sequences and leaves all others as they are. So a backslash in
an escaped text begins one of the ten sequences, and a character that means something to TeX stands
in one. An escaped text is balanced, since each sequence is and no other brace is left; it cannot end
the group that it is put in. And since no sequence begins another, the text can be told from what it
is escaped to. The main statement, `escape_inert`, says all of this.
-/

set_option autoImplicit false

namespace AccessLatency

namespace Tex

/-- The sequences of escaped texts, with the characters that they stand for. -/
def sequences : List (List Char × Char) :=
  [("\\&".toList, '&'), ("\\%".toList, '%'), ("\\$".toList, '$'), ("\\#".toList, '#'),
   ("\\_".toList, '_'), ("\\\x7b".toList, '\x7b'), ("\\\x7d".toList, '\x7d'),
   ("\\textasciitilde\x7b\x7d".toList, '~'), ("\\textasciicircum\x7b\x7d".toList, '^'),
   ("\\textbackslash\x7b\x7d".toList, '\\')]

/-- The characters that TeX takes for more than themselves, braces and the backslash apart. -/
def active : List Char := ['&', '%', '$', '#', '_', '~', '^']

/-- A place of a text lies in one of the sequences. -/
def InSequence (s : List Char) (i : Nat) : Prop :=
  ∃ start, ∃ e ∈ sequences, e.1 <+: s.drop start ∧ start ≤ i ∧ i < start + e.1.length

/-- The text that an escaped text stands for. -/
def unescape (s : List Char) : List Char := Text.decode sequences s

/-- A character is escaped as a sequence, unless no sequence stands for it. -/
theorem escapeChar_cases (c : Char) :
    (escapeChar c, c) ∈ sequences ∨ escapeChar c = [c] ∧ c ∉ sequences.map Prod.snd := by
  by_cases known : c ∈ sequences.map Prod.snd
  · left
    simp only [sequences, List.map_cons, List.map_nil, List.mem_cons, List.not_mem_nil,
      or_false] at known
    rcases known with rfl | rfl | rfl | rfl | rfl | rfl | rfl | rfl | rfl | rfl <;> decide
  · right
    refine ⟨?_, known⟩
    simp only [sequences, List.map_cons, List.map_nil, List.mem_cons, List.not_mem_nil, or_false,
      not_or] at known
    simp [escapeChar, special, known]

/-- A sequence has one backslash, which begins it. -/
theorem backslash_first_of_mem {e : List Char × Char} (h : e ∈ sequences) :
    ∃ rest, e.1 = '\\' :: rest ∧ '\\' ∉ rest := by
  have all : ∀ e ∈ sequences, e.1.head? = some '\\' ∧ '\\' ∉ e.1.tail := by decide
  obtain ⟨head, tail⟩ := all e h
  exact ⟨e.1.tail, (List.eq_cons_of_mem_head? head), tail⟩

/-- A sequence is balanced. -/
theorem balanced_of_mem {e : List Char × Char} (h : e ∈ sequences) : Balanced e.1 := by
  have all : ∀ e ∈ sequences, Balanced e.1 := by decide
  exact all e h

/-- No sequence begins another. -/
theorem prefixFree_sequences : Text.PrefixFree sequences := by decide

/-- Reading the sequences undoes the escaping of a character, whatever follows it. -/
theorem undoes_escapeChar : Text.Undoes sequences escapeChar := by
  intro c rest
  rcases escapeChar_cases c with known | ⟨itself, unknown⟩
  · right
    obtain ⟨others, cons, -⟩ := backslash_first_of_mem known
    dsimp only at cons
    exact ⟨by simp [cons], Text.codeAt?_of_mem prefixFree_sequences known rest⟩
  · left
    have first : ∀ e ∈ sequences, e.1.head? = some '\\' := by decide
    refine ⟨itself, Text.codeAt?_of_ne first ?_ rest⟩
    rintro rfl
    exact unknown (by decide)

/-- Escaping can be undone. -/
theorem unescape_escape (s : List Char) : unescape (escape s) = s :=
  Text.decode_flatMap undoes_escapeChar s

/-- An escaped character is balanced. -/
theorem balanced_escapeChar (c : Char) : Balanced (escapeChar c) := by
  rcases escapeChar_cases c with known | ⟨itself, unknown⟩
  · exact balanced_of_mem known
  · rw [itself]
    apply balanced_singleton
    refine ⟨?_, ?_, ?_⟩ <;>
    · rintro rfl
      exact unknown (by decide)

/-- An escaped text is balanced. -/
theorem balanced_escape (s : List Char) : Balanced (escape s) :=
  balanced_flatMap fun c _ => balanced_escapeChar c

/-- A character of an escaped text is one of those that some character is written as. -/
theorem exists_of_getElem?_escape {s : List Char} {i : Nat} {d : Char}
    (h : (escape s)[i]? = some d) :
    ∃ front c back j, s = front ++ c :: back ∧ i = (escape front).length + j ∧
      (escapeChar c)[j]? = some d := by
  induction s generalizing i with
  | nil => simp [escape] at h
  | cons c s ih =>
    have cons : escape (c :: s) = escapeChar c ++ escape s := List.flatMap_cons
    rw [cons] at h
    by_cases inside : i < (escapeChar c).length
    · rw [List.getElem?_append_left inside] at h
      exact ⟨[], c, s, i, rfl, by simp [escape], h⟩
    · rw [List.getElem?_append_right (not_lt.1 inside)] at h
      obtain ⟨front, e, back, j, rfl, place, there⟩ := ih h
      refine ⟨c :: front, e, back, j, rfl, ?_, there⟩
      have longer : escape (c :: front) = escapeChar c ++ escape front := List.flatMap_cons
      rw [longer, List.length_append]
      omega

/-- Behind the characters before it, an escaped text goes on with a character that is escaped by
itself. -/
theorem drop_escape (front back : List Char) (c : Char) :
    (escape (front ++ c :: back)).drop (escape front).length = escapeChar c ++ escape back := by
  simp [escape]

/-- A character of an escaped text that a sequence stands for is in one, and a backslash is at the
beginning of one. -/
theorem exists_sequence_of_getElem?_escape {s : List Char} {i : Nat} {d : Char}
    (h : (escape s)[i]? = some d) (known : d ∈ sequences.map Prod.snd) :
    ∃ start, ∃ e ∈ sequences, e.1 <+: (escape s).drop start ∧ start ≤ i ∧
      i < start + e.1.length ∧ (d = '\\' → i = start) := by
  obtain ⟨front, c, back, j, rfl, rfl, there⟩ := exists_of_getElem?_escape h
  rcases escapeChar_cases c with sequence | ⟨itself, unknown⟩
  · refine ⟨(escape front).length, _, sequence, ?_, Nat.le_add_right _ j, ?_, ?_⟩
    · rw [drop_escape]
      exact List.prefix_append _ _
    · have := (List.getElem?_eq_some_iff.1 there).1
      dsimp only
      omega
    · rintro rfl
      obtain ⟨rest, cons, none⟩ := backslash_first_of_mem sequence
      dsimp only at cons
      cases j with
      | zero => rfl
      | succ j =>
        rw [cons, List.getElem?_cons_succ] at there
        exact absurd (List.mem_of_getElem? there) none
  · -- A character that is written as itself is none that a sequence stands for.
    rw [itself] at there
    have := List.mem_of_getElem? there
    rw [List.mem_singleton] at this
    rw [this] at known
    exact absurd known unknown

/-- In an escaped text each backslash begins one of ten sequences, and the other characters that TeX
takes for more than themselves stand in one. Its groups are closed, and no part of it closes more
than it opens, so that it is read to its end in a group that it is put in. The text that it is made
from can be read from it. -/
theorem escape_inert (s : List Char) :
    (∀ i, (escape s)[i]? = some '\\' → ∃ e ∈ sequences, e.1 <+: (escape s).drop i) ∧
    (∀ i, ∀ c ∈ active, (escape s)[i]? = some c → InSequence (escape s) i) ∧
    depth (escape s) = 0 ∧ (∀ n, 0 ≤ depth ((escape s).take n)) ∧
    (∀ rest, readUntil? '\x7d' (escape s ++ '\x7d' :: rest) = some (escape s, rest)) ∧
    unescape (escape s) = s := by
  have balanced := balanced_escape s
  refine ⟨?_, ?_, ?_, balanced.nonneg, readUntil?_append balanced.hides_closing,
    unescape_escape s⟩
  · intro i there
    obtain ⟨start, e, member, front, -, -, first⟩ :=
      exists_sequence_of_getElem?_escape there (by decide)
    rw [first rfl]
    exact ⟨e, member, front⟩
  · intro i c isActive there
    have all : ∀ d ∈ active, d ∈ sequences.map Prod.snd := by simp [active, sequences]
    obtain ⟨start, e, member, front, least, most, -⟩ :=
      exists_sequence_of_getElem?_escape there (all c isActive)
    exact ⟨start, e, member, front, least, most⟩
  · rw [depth, balanced.closed]
    rfl

example : escape "50% of L3_size".toList = "50\\% of L3\\_size".toList := by decide

end Tex

end AccessLatency
