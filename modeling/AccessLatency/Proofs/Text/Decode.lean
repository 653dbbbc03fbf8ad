import Mathlib.Tactic

/-!
# Codes for characters

A text may be written with codes in place of some of its characters. A table lists the codes and the
characters they stand for. `decode` reads such a text from the left: where a code of the table
begins it takes the character that the code stands for, and elsewhere the character it finds. A
writer whose codes are in the table, and who leaves no other character at which a code begins, is
undone by `decode`, `decode_flatMap`; so two texts that are written alike are the same.
-/

set_option autoImplicit false

namespace AccessLatency

namespace Text

/-- The first code of a table that a text begins with. -/
def codeAt? (table : List (List Char × Char)) (s : List Char) : Option (List Char × Char) :=
  table.find? fun entry => entry.1.isPrefixOf s

/-- A text with characters for the codes of a table. The first `skip` characters belong to a code
that is read already. -/
def decodeFrom (table : List (List Char × Char)) : Nat → List Char → List Char
  | _, [] => []
  | skip + 1, _ :: rest => decodeFrom table skip rest
  | 0, c :: rest =>
    match codeAt? table (c :: rest) with
    | some (code, d) => d :: decodeFrom table (code.length - 1) rest
    | none => c :: decodeFrom table 0 rest

/-- A text with characters for the codes of a table. -/
def decode (table : List (List Char × Char)) (s : List Char) : List Char := decodeFrom table 0 s

variable {table : List (List Char × Char)} {write : Char → List Char}

/-- A table undoes a way to write characters: each is written as its code, or as itself if no code
can begin there, whatever follows. -/
def Undoes (table : List (List Char × Char)) (write : Char → List Char) : Prop :=
  ∀ c rest,
    (write c = [c] ∧ codeAt? table (c :: rest) = none) ∨
      (write c ≠ [] ∧ codeAt? table (write c ++ rest) = some (write c, c))

/-- A table none of whose codes begins another. -/
def PrefixFree (table : List (List Char × Char)) : Prop :=
  table.Pairwise fun a b => ¬ a.1 <+: b.1 ∧ ¬ b.1 <+: a.1

instance (table : List (List Char × Char)) : Decidable (PrefixFree table) :=
  inferInstanceAs (Decidable (table.Pairwise _))

/-- What begins with a code of a prefix-free table begins with no other code. -/
theorem codeAt?_of_mem (free : PrefixFree table) {e : List Char × Char} (h : e ∈ table)
    (rest : List Char) : codeAt? table (e.1 ++ rest) = some e := by
  induction table with
  | nil => cases h
  | cons a table ih =>
    obtain ⟨apart, free⟩ := List.pairwise_cons.1 free
    unfold codeAt?
    rcases List.mem_cons.1 h with rfl | later
    · have here : e.1.isPrefixOf (e.1 ++ rest) = true :=
        List.isPrefixOf_iff_prefix.2 (List.prefix_append _ _)
      simp only [List.find?_cons, here]
    · have elsewhere : a.1.isPrefixOf (e.1 ++ rest) = false := by
        rw [Bool.eq_false_iff, ne_eq, List.isPrefixOf_iff_prefix]
        intro found
        rcases List.prefix_or_prefix_of_prefix found (List.prefix_append e.1 rest) with h | h
        · exact (apart e later).1 h
        · exact (apart e later).2 h
      simp only [List.find?_cons, elsewhere]
      exact ih free later

/-- If all codes begin with one character then none begins at another. -/
theorem codeAt?_of_ne {first c : Char} (codes : ∀ e ∈ table, e.1.head? = some first) (h : c ≠ first)
    (rest : List Char) : codeAt? table (c :: rest) = none := by
  unfold codeAt?
  rw [List.find?_eq_none]
  intro e member found
  obtain ⟨others, cons⟩ := List.head?_eq_some_iff.1 (codes e member)
  rw [cons, List.isPrefixOf_cons_cons, Bool.and_eq_true, beq_iff_eq] at found
  exact h found.1.symm

/-- The characters of a code that is read already are passed over. -/
theorem decodeFrom_append (s rest : List Char) :
    decodeFrom table s.length (s ++ rest) = decode table rest := by
  induction s with
  | nil => rfl
  | cons c s ih =>
    rw [List.length_cons, List.cons_append, decodeFrom]
    exact ih

/-- A code of the table is read as its character. -/
theorem decode_append_of_code {code : List Char} {c : Char} {rest : List Char} (filled : code ≠ [])
    (found : codeAt? table (code ++ rest) = some (code, c)) :
    decode table (code ++ rest) = c :: decode table rest := by
  obtain ⟨first, others, rfl⟩ := List.exists_cons_of_ne_nil filled
  rw [List.cons_append] at found ⊢
  unfold decode
  rw [decodeFrom, found]
  simp only [List.length_cons, Nat.add_sub_cancel]
  rw [decodeFrom_append]
  rfl

/-- A character at which no code begins is read as itself. -/
theorem decode_cons_of_plain {c : Char} {rest : List Char}
    (plain : codeAt? table (c :: rest) = none) :
    decode table (c :: rest) = c :: decode table rest := by
  unfold decode
  rw [decodeFrom, plain]

/-- What is written with the codes of a table is decoded with the table. -/
theorem decode_flatMap (undoes : Undoes table write) (s : List Char) :
    decode table (s.flatMap write) = s := by
  induction s with
  | nil => rfl
  | cons c s ih =>
    rw [List.flatMap_cons]
    rcases undoes c (s.flatMap write) with ⟨itself, plain⟩ | ⟨filled, found⟩
    · rw [itself, List.singleton_append, decode_cons_of_plain plain, ih]
    · rw [decode_append_of_code filled found, ih]

end Text

end AccessLatency
