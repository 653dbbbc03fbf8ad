import AccessLatency.Proofs.Binary64.WholeNumbers
import AccessLatency.LatencyTable.Csv
import Mathlib.Tactic

/-!
# The sizes of a table

A size stands in its column as a literal of a word, or as any other number whose value is whole.
`sizes_read_by_value` says it with the value as a rational number: the size that is read is that
value, exactly. The one exception is `2 ^ 64`, which is too large for a word by one. It passes the
comparison with the largest word, for that word is rounded up to it, and is read as that word.
-/

set_option autoImplicit false

namespace AccessLatency

namespace LatencyTable

variable {field : List Char}

/-- A natural number up to `2 ^ 64` is the word that it is cut off to, unless it is `2 ^ 64`. -/
theorem toWord_eq_iff {v : Binary64} {k : ℕ} (range : k ≤ 2 ^ 64)
    (whole : v.rational? = some (k : ℚ)) {n : UInt64} :
    v.toWord = n ↔ k = n.toNat ∨ k = 2 ^ 64 ∧ n.toNat = 2 ^ 64 - 1 := by
  have below := n.toNat_lt
  have word : min k Text.wordBound < 2 ^ 64 := by
    unfold Text.wordBound
    omega
  rw [Binary64.toWord_of_rational? whole, ← UInt64.toNat_inj, UInt64.toNat_ofNat_of_lt' word]
  unfold Text.wordBound
  omega

/-- A literal of a word is read as the word. -/
theorem readSize?_of_literal {n : UInt64} (h : Text.IsWordLiteral field n) :
    readSize? field = some n := by
  unfold readSize?
  rw [h.word?_eq_some]

/-- Where there is no literal of a word, the value of the number counts. -/
theorem readSize?_of_not_literal (h : ∀ w, ¬ Text.IsWordLiteral field w) {n : UInt64} :
    readSize? field = some n ↔ ∃ v, Binary64.ofChars? field = some v ∧
      (v.rational? = some (n.toNat : ℚ) ∨ v.rational? = some (2 ^ 64) ∧ n.toNat = 2 ^ 64 - 1) := by
  unfold readSize?
  rw [Text.word?_eq_none_iff.2 h]
  cases Binary64.ofChars? field with
  | none => simp
  | some v =>
    simp only [Option.some.injEq, exists_eq_left']
    split
    · rename_i accepted
      obtain ⟨k, range, whole⟩ := Binary64.accepted_iff.1 accepted
      rw [Option.some.injEq, toWord_eq_iff range whole, whole]
      norm_cast
      simp only [Option.some.injEq, Nat.cast_inj]
    · rename_i refused
      constructor
      · intro read
        cases read
      · rintro (whole | ⟨whole, -⟩)
        · exact absurd (Binary64.accepted_iff.2 ⟨n.toNat, n.toNat_lt.le, whole⟩) refused
        · exact absurd (Binary64.accepted_iff.2 ⟨2 ^ 64, le_rfl, by exact_mod_cast whole⟩) refused

/-- A literal of a word is read as a natural number that is at most `2 ^ 64`. -/
theorem exists_rational_of_literal {w : UInt64} (h : Text.IsWordLiteral field w) :
    ∃ v, Binary64.ofChars? field = some v ∧
      ∃ k : ℕ, k ≤ 2 ^ 64 ∧ v.rational? = some (k : ℚ) := by
  obtain ⟨digits, spelt, filled, all, value⟩ := h
  have read := Binary64.ofChars?_digits filled all
  rw [value] at read
  refine ⟨_, ?_, Binary64.rational?_ofNat_of_lt w.toNat_lt⟩
  rcases spelt with rfl | rfl
  · exact read
  · rw [Binary64.ofChars?_plus filled all, read]

/-- Every size is read from a number that is natural and at most `2 ^ 64`. -/
theorem exists_rational_of_readSize? {n : UInt64} (h : readSize? field = some n) :
    ∃ v, Binary64.ofChars? field = some v ∧
      ∃ k : ℕ, k ≤ 2 ^ 64 ∧ v.rational? = some (k : ℚ) := by
  by_cases literal : ∃ w, Text.IsWordLiteral field w
  · obtain ⟨w, literal⟩ := literal
    exact exists_rational_of_literal literal
  · obtain ⟨v, read, whole | ⟨whole, -⟩⟩ := (readSize?_of_not_literal (not_exists.1 literal)).1 h
    · exact ⟨v, read, n.toNat, n.toNat_lt.le, whole⟩
    · exact ⟨v, read, 2 ^ 64, le_rfl, by exact_mod_cast whole⟩

/-- A record whose first field cannot be read as a size fails at this field. -/
theorem readRow_of_no_size (h : readSize? field = none) (line : ℕ) (random sequential : List Char)
    (rest : List (List Char)) :
    readRow (rest.length + 3) ⟨line, field :: random :: sequential :: rest⟩ =
      .error ⟨line, .badSize field⟩ := by
  have wide : (field :: random :: sequential :: rest).length = rest.length + 3 := rfl
  unfold readRow
  rw [if_pos wide, readFields, h]

/-- A size is read from a field exactly if the field is a literal of this word, or is no literal of
a word and has the size as its value; beside these only the value `2 ^ 64` is read, as the largest
word. A field whose value is negative, not whole, not finite or beyond `2 ^ 64` holds no size, and a
row without a size is refused by the number of its line. -/
theorem sizes_read_by_value (field : List Char) :
    (∀ n : UInt64, readSize? field = some n ↔
      Text.IsWordLiteral field n ∨
        (∀ w, ¬ Text.IsWordLiteral field w) ∧ ∃ v, Binary64.ofChars? field = some v ∧
          (v.rational? = some (n.toNat : ℚ) ∨
            v.rational? = some (2 ^ 64) ∧ n.toNat = 2 ^ 64 - 1)) ∧
    (∀ v, Binary64.ofChars? field = some v →
      (v.isFinite = false ∨
        ∃ q, v.rational? = some q ∧ (q < 0 ∨ (∀ k : ℤ, q ≠ k) ∨ 2 ^ 64 < q)) →
      readSize? field = none) ∧
    (readSize? field = none → ∀ (line : ℕ) (random sequential : List Char)
      (rest : List (List Char)),
      readRow (rest.length + 3) ⟨line, field :: random :: sequential :: rest⟩ =
        .error ⟨line, .badSize field⟩) := by
  refine ⟨fun n => ?_, fun v read wrong => ?_, readRow_of_no_size⟩
  · by_cases literal : ∃ w, Text.IsWordLiteral field w
    · obtain ⟨w, literal⟩ := literal
      rw [readSize?_of_literal literal]
      constructor
      · rintro ⟨⟩
        exact .inl literal
      · rintro (same | ⟨none, -⟩)
        · rw [← readSize?_of_literal literal, readSize?_of_literal same]
        · exact absurd literal (none w)
    · rw [readSize?_of_not_literal (not_exists.1 literal)]
      constructor
      · intro value
        exact .inr ⟨not_exists.1 literal, value⟩
      · rintro (same | ⟨-, value⟩)
        · exact absurd ⟨n, same⟩ literal
        · exact value
  · refine Option.eq_none_iff_forall_ne_some.2 fun n size => ?_
    obtain ⟨v', read', k, range, whole⟩ := exists_rational_of_readSize? size
    obtain rfl : v = v' := Option.some.inj (read.symm.trans read')
    rcases wrong with infinite | ⟨q, value, wrong⟩
    · rw [Binary64.isFinite_of_rational? whole] at infinite
      cases infinite
    · obtain rfl : q = k := Option.some.inj (value.symm.trans whole)
      have most : (k : ℚ) ≤ 2 ^ 64 := by exact_mod_cast range
      rcases wrong with negative | fraction | large
      · exact absurd negative (not_lt.2 (Nat.cast_nonneg k))
      · exact fraction k (by push_cast; rfl)
      · exact absurd large (not_lt.2 most)

/-- Fifteen is read from a text with a point and an exponent. A half in line seven is refused. -/
theorem sizes_read_by_value_fifteen :
    (∃ v, Binary64.ofChars? "1.5e1".toList = some v ∧ v.rational? = some 15) ∧
      readSize? "1.5e1".toList = some 15 ∧
      (∃ v, Binary64.ofChars? "0.5".toList = some v ∧ v.rational? = some (1 / 2)) ∧
      readRow 3 ⟨7, ["0.5".toList, ['1'], ['2']]⟩ = .error ⟨7, .badSize "0.5".toList⟩ := by
  have fifteen : ∃ v, Binary64.ofChars? "1.5e1".toList = some v ∧ v.rational? = some 15 :=
    Option.bind_eq_some_iff.1 (by decide +kernel)
  have half : ∃ v, Binary64.ofChars? "0.5".toList = some v ∧ v.rational? = some (1 / 2) :=
    Option.bind_eq_some_iff.1 (by decide +kernel)
  have noWord : Text.word? "1.5e1".toList = none := by decide
  have fraction (k : ℤ) : (1 / 2 : ℚ) ≠ k := by
    intro whole
    have twice : (1 : ℚ) = 2 * k := by linarith
    have twice : 1 = 2 * k := by exact_mod_cast twice
    omega
  refine ⟨fifteen, ?_, half, ?_⟩
  · obtain ⟨v, read, value⟩ := fifteen
    have value : v.rational? = some (((15 : UInt64).toNat : ℕ) : ℚ) := by simpa using value
    exact ((sizes_read_by_value _).1 15).2
      (.inr ⟨Text.word?_eq_none_iff.1 noWord, v, read, .inl value⟩)
  · obtain ⟨v, read, value⟩ := half
    have none := (sizes_read_by_value _).2.1 v read (.inr ⟨_, value, .inr (.inl fraction)⟩)
    exact (sizes_read_by_value _).2.2 none 7 ['1'] ['2'] []

/-- The number `2 ^ 64` is no literal of a word and larger than all words, and yet it is read. -/
theorem readSize?_beyond_word :
    (∀ w, ¬ Text.IsWordLiteral "18446744073709551616".toList w) ∧
      (∃ v, Binary64.ofChars? "18446744073709551616".toList = some v ∧
        v.rational? = some (2 ^ 64)) ∧
      readSize? "18446744073709551616".toList = some (UInt64.ofNat (2 ^ 64 - 1)) := by
  have noWord : Text.word? "18446744073709551616".toList = none := by decide
  refine ⟨Text.word?_eq_none_iff.1 noWord, Option.bind_eq_some_iff.1 (by decide +kernel), ?_⟩
  decide +kernel

end LatencyTable

end AccessLatency
