import AccessLatency.Text.Digits
import Mathlib.Data.List.TakeWhile
import Mathlib.Tactic

/-!
# Decimal digits are read back

The digits of a number, read as digits, give the number again; so a whole number that is written in
decimal is a literal of itself. `word?_decimal` says it for words. What else is read as a word is in
`word?_eq_some_iff`: digits with zeros in front or behind a plus sign, and nothing more.
-/

set_option autoImplicit false

namespace AccessLatency

namespace Text

/-- Digits are added to a value one part behind the other. -/
theorem digitsValueFrom_append (start : Nat) (a b : List Char) :
    digitsValueFrom start (a ++ b) = digitsValueFrom (digitsValueFrom start a) b :=
  List.foldl_append

/-- The value of digits is that of the library. -/
theorem digitsValueFrom_eq_ofDigitChars (start : Nat) (digits : List Char) :
    digitsValueFrom start digits = Nat.ofDigitChars 10 digits start := rfl

/-- Zeros behind other digits multiply by a power of ten. -/
theorem digitsValueFrom_zeros (start count : Nat) :
    digitsValueFrom start (List.replicate count '0') = start * 10 ^ count := by
  rw [digitsValueFrom_eq_ofDigitChars, Nat.ofDigitChars_replicate_zero, Nat.mul_comm]

/-- Digits in front of others count for as many powers of ten as digits follow. -/
theorem digitsValue_append (a b : List Char) :
    digitsValue (a ++ b) = digitsValue a * 10 ^ b.length + digitsValue b := by
  unfold digitsValue
  rw [digitsValueFrom_append, digitsValueFrom_eq_ofDigitChars, digitsValueFrom_eq_ofDigitChars 0 b,
    Nat.ofDigitChars_eq_ofDigitChars_zero, Nat.mul_comm]

/-- Zeros have the value zero. -/
theorem digitsValue_zeros (count : Nat) : digitsValue (List.replicate count '0') = 0 := by
  unfold digitsValue
  rw [digitsValueFrom_zeros, Nat.zero_mul]

/-- Digits do not make a value smaller. -/
theorem le_digitsValueFrom (start : Nat) (digits : List Char) :
    start ≤ digitsValueFrom start digits := by
  induction digits generalizing start with
  | nil => exact Nat.le_refl start
  | cons c rest ih =>
    calc start ≤ 10 * start + digitValue c := by omega
      _ ≤ digitsValueFrom (10 * start + digitValue c) rest := ih _

/-- Every number has a digit. -/
@[simp] theorem decimal_ne_nil (n : Nat) : decimal n ≠ [] := Nat.toDigits_ne_nil

/-- A number is written in digits. -/
theorem isDigit_of_mem_decimal {n : Nat} {c : Char} (h : c ∈ decimal n) : c.isDigit = true :=
  Nat.isDigit_of_mem_toDigits (by decide) (by decide) h

/-- The digits of a number are read as the number. -/
@[simp] theorem digitsValue_decimal (n : Nat) : digitsValue (decimal n) = n :=
  Nat.ofDigitChars_ten_toDigits

/-- A number has at most `k` digits exactly if it is below the power of ten. -/
theorem length_decimal_le_iff {n k : Nat} (h : 0 < k) :
    (decimal n).length ≤ k ↔ n < 10 ^ k :=
  Nat.length_toDigits_le_iff (by decide) h

/-- A number has at least one digit. -/
theorem length_decimal_pos (n : Nat) : 0 < (decimal n).length := Nat.length_toDigits_pos

/-- A positive number is at least the power of ten of its first digit. -/
theorem pow_length_decimal_le {n : Nat} (h : 0 < n) : 10 ^ ((decimal n).length - 1) ≤ n := by
  rcases Nat.eq_zero_or_pos ((decimal n).length - 1) with one | more
  · rw [one]
    exact h
  · by_contra below
    have := (length_decimal_le_iff more).2 (not_le.1 below)
    omega

/-- A number is below the power of ten of its number of digits. -/
theorem lt_pow_length_decimal (n : Nat) : n < 10 ^ (decimal n).length :=
  (length_decimal_le_iff (length_decimal_pos n)).1 (Nat.le_refl _)

/-- A positive number times a power of ten has as many more digits. -/
theorem length_decimal_mul_pow {n : Nat} (h : 0 < n) (k : Nat) :
    (decimal (n * 10 ^ k)).length = (decimal n).length + k := by
  have pos := length_decimal_pos n
  have most : (decimal (n * 10 ^ k)).length ≤ (decimal n).length + k := by
    rw [length_decimal_le_iff (by omega), Nat.pow_add]
    exact Nat.mul_lt_mul_of_pos_right (lt_pow_length_decimal n) (Nat.pow_pos (by omega))
  have least : ¬ (decimal (n * 10 ^ k)).length ≤ (decimal n).length - 1 + k := by
    intro short
    have above := Nat.mul_le_mul_right (10 ^ k) (pow_length_decimal_le h)
    rw [← Nat.pow_add] at above
    have below := Nat.pow_le_pow_right (by decide : 0 < 10) short
    have := lt_pow_length_decimal (n * 10 ^ k)
    omega
  omega

/-- The digits of a number other than zero do not begin with a zero. -/
theorem head_decimal_ne_zero {n : Nat} (h : 0 < n) :
    ∃ c rest, decimal n = c :: rest ∧ c ≠ '0' := by
  induction n using Nat.strongRecOn with
  | ind n ih =>
    unfold decimal at ih ⊢
    by_cases small : n < 10
    · refine ⟨n.digitChar, [], Nat.toDigits_of_lt_base small, ?_⟩
      rw [ne_eq, Nat.digitChar_eq_zero]
      omega
    · obtain ⟨c, rest, front, other⟩ := ih (n / 10) (by omega) (by omega)
      refine ⟨c, rest ++ [(n % 10).digitChar], ?_, other⟩
      rw [Nat.toDigits_of_base_le (by decide) (not_lt.1 small), front, List.cons_append]

/-! ## Runs of digits in front of a text -/

/-- Digits are the leading digits of a text that goes on with something else. -/
theorem leadingDigits_append {digits rest : List Char} (all : ∀ c ∈ digits, c.isDigit = true)
    (stop : ∀ c, rest.head? = some c → c.isDigit = false) :
    leadingDigits (digits ++ rest) = digits := by
  unfold leadingDigits
  rw [List.takeWhile_append_of_pos all]
  cases rest with
  | nil => simp
  | cons c rest => simp [stop c rfl]

/-- What follows digits in front of a rest that does not start with one. -/
theorem afterDigits_append {digits rest : List Char} (all : ∀ c ∈ digits, c.isDigit = true)
    (stop : ∀ c, rest.head? = some c → c.isDigit = false) :
    afterDigits (digits ++ rest) = rest := by
  unfold afterDigits
  rw [List.dropWhile_append_of_pos all]
  cases rest with
  | nil => simp
  | cons c rest => simp [stop c rfl]

/-- Zeros are digits. -/
theorem isDigit_of_mem_zeros {k : Nat} {c : Char} (h : c ∈ List.replicate k '0') :
    c.isDigit = true := by
  rw [List.eq_of_mem_replicate h]
  rfl

/-- Digits are their own leading digits. -/
theorem leadingDigits_eq_self {digits : List Char} (all : ∀ c ∈ digits, c.isDigit = true) :
    leadingDigits digits = digits :=
  List.takeWhile_eq_self_iff.2 all

/-- Nothing stands behind digits with nothing else behind them. -/
theorem afterDigits_eq_nil {digits : List Char} (all : ∀ c ∈ digits, c.isDigit = true) :
    afterDigits digits = [] :=
  List.dropWhile_eq_nil_iff.2 all

/-! ## Literals -/

/-- Digits with a value up to the bound are read as this value. -/
theorem boundedDigits_eq_ok {bound : Nat} {overflow : IntegerFault} {start : Nat}
    {digits : List Char} (all : ∀ c ∈ digits, c.isDigit = true)
    (range : digitsValueFrom start digits ≤ bound) :
    boundedDigits bound overflow start digits = .ok (digitsValueFrom start digits) := by
  induction digits generalizing start with
  | nil => rfl
  | cons c rest ih =>
    have digit : c.isDigit = true := all c (by simp)
    have next : 10 * start + digitValue c ≤ bound :=
      (le_digitsValueFrom _ rest).trans range
    rw [boundedDigits, if_pos digit]
    dsimp only
    rw [if_pos next]
    exact ih (fun d hd => all d (List.mem_cons_of_mem c hd)) range

/-- Digits with a value beyond the bound fail with the fault for overflow. -/
theorem boundedDigits_eq_error {bound : Nat} {overflow : IntegerFault} {start : Nat}
    {digits : List Char} (all : ∀ c ∈ digits, c.isDigit = true) (least : start ≤ bound)
    (beyond : bound < digitsValueFrom start digits) :
    boundedDigits bound overflow start digits = .error overflow := by
  induction digits generalizing start with
  | nil => exact absurd beyond (not_lt.2 least)
  | cons c rest ih =>
    have digit : c.isDigit = true := all c List.mem_cons_self
    rw [boundedDigits, if_pos digit]
    dsimp only
    split
    · rename_i next
      exact ih (fun d hd => all d (List.mem_cons_of_mem c hd)) next beyond
    · rfl

/-- Nothing but digits is read as digits. -/
theorem isDigit_of_boundedDigits {bound : Nat} {overflow : IntegerFault} {start n : Nat}
    {s : List Char} (h : boundedDigits bound overflow start s = .ok n) :
    ∀ c ∈ s, c.isDigit = true := by
  induction s generalizing start with
  | nil => simp
  | cons c rest ih =>
    rw [boundedDigits] at h
    split at h
    · rename_i digit
      dsimp only at h
      split at h
      · exact List.forall_mem_cons.2 ⟨digit, ih h⟩
      · cases h
    · cases h

/-- A literal that has no sign is read as its digits. -/
theorem naturalLiteral_eq_boundedDigits {bound : Nat} {s : List Char} (filled : s ≠ [])
    (plus : ∀ c ∈ s.head?, c ≠ '+') :
    naturalLiteral bound s = boundedDigits bound .tooLarge 0 s := by
  cases s with
  | nil => exact absurd rfl filled
  | cons c rest =>
    have other : c ≠ '+' := plus c rfl
    unfold naturalLiteral
    split
    · contradiction
    · simp_all
    · simp_all
    · rfl

/-- Digits do not begin with a plus sign. -/
theorem ne_plus_of_digits {digits : List Char} (all : ∀ c ∈ digits, c.isDigit = true) :
    ∀ c ∈ digits.head?, c ≠ '+' := by
  rintro c first rfl
  exact absurd (all '+' (List.mem_of_mem_head? first)) (by decide)

/-- A run of digits is a literal of its value. -/
theorem naturalLiteral_eq_ok {bound : Nat} {digits : List Char} (filled : digits ≠ [])
    (all : ∀ c ∈ digits, c.isDigit = true) (range : digitsValue digits ≤ bound) :
    naturalLiteral bound digits = .ok (digitsValue digits) := by
  rw [naturalLiteral_eq_boundedDigits filled (ne_plus_of_digits all)]
  exact boundedDigits_eq_ok all range

/-- A run of digits is a literal of a word if its value is one, however many zeros are in front. -/
theorem word?_digits {digits : List Char} (filled : digits ≠ [])
    (all : ∀ c ∈ digits, c.isDigit = true) (range : digitsValue digits < 2 ^ 64) :
    word? digits = some (UInt64.ofNat (digitsValue digits)) := by
  have bounded : digitsValue digits ≤ wordBound := Nat.le_sub_one_of_lt range
  unfold word?
  rw [naturalLiteral_eq_ok filled all bounded]

/-- Digits with a value of 2 ^ 64 or more are no word. -/
theorem word?_eq_none {digits : List Char} (filled : digits ≠ [])
    (all : ∀ c ∈ digits, c.isDigit = true) (beyond : 2 ^ 64 ≤ digitsValue digits) :
    word? digits = none := by
  have large : wordBound < digitsValueFrom 0 digits := Nat.lt_of_lt_of_le (by decide) beyond
  unfold word?
  rw [naturalLiteral_eq_boundedDigits filled (ne_plus_of_digits all),
    boundedDigits_eq_error all (Nat.zero_le _) large]

/-- A literal of a word that does not begin with a plus sign is a run of digits. -/
theorem digits_of_word? {s : List Char} {w : UInt64} (plus : ∀ c ∈ s.head?, c ≠ '+')
    (h : word? s = some w) : s ≠ [] ∧ ∀ c ∈ s, c.isDigit = true := by
  have filled : s ≠ [] := by
    rintro rfl
    cases h
  refine ⟨filled, ?_⟩
  unfold word? at h
  rw [naturalLiteral_eq_boundedDigits filled plus] at h
  split at h
  · rename_i n read
    exact isDigit_of_boundedDigits read
  · cases h

/-- The decimal digits of a word are a literal of the word. -/
theorem word?_decimal (w : UInt64) : word? (decimal w.toNat) = some w := by
  have range : digitsValue (decimal w.toNat) < 2 ^ 64 := by
    rw [digitsValue_decimal]
    exact UInt64.toNat_lt w
  rw [word?_digits (decimal_ne_nil _) (fun _ => isDigit_of_mem_decimal) range,
    digitsValue_decimal, UInt64.ofNat_toNat]

/-- A literal of a word: digits with the value of the word, behind a plus sign or without one. -/
def IsWordLiteral (s : List Char) (w : UInt64) : Prop :=
  ∃ digits, (s = digits ∨ s = '+' :: digits) ∧ digits ≠ [] ∧ (∀ c ∈ digits, c.isDigit = true) ∧
    digitsValue digits = w.toNat

/-- A plus sign in front of digits does not change the word. -/
theorem word?_plus {digits : List Char} (all : ∀ c ∈ digits, c.isDigit = true) :
    word? ('+' :: digits) = word? digits := by
  cases digits with
  | nil => rfl
  | cons c rest =>
    have bounded : naturalLiteral wordBound (c :: rest) =
        boundedDigits wordBound .tooLarge 0 (c :: rest) :=
      naturalLiteral_eq_boundedDigits (by simp) (ne_plus_of_digits all)
    unfold word?
    rw [bounded]
    rfl

/-- A literal of a word is read as the word. -/
theorem IsWordLiteral.word?_eq_some {s : List Char} {w : UInt64} (h : IsWordLiteral s w) :
    word? s = some w := by
  obtain ⟨digits, spelt, filled, all, value⟩ := h
  have range : digitsValue digits < 2 ^ 64 := by
    rw [value]
    exact UInt64.toNat_lt w
  have read : word? digits = some w := by
    rw [word?_digits filled all range, value, UInt64.ofNat_toNat]
  rcases spelt with rfl | rfl
  · exact read
  · rw [word?_plus all, read]

/-- Digits that are read as a word have its value. -/
theorem digitsValue_of_word? {digits : List Char} {w : UInt64} (filled : digits ≠ [])
    (all : ∀ c ∈ digits, c.isDigit = true) (h : word? digits = some w) :
    digitsValue digits = w.toNat := by
  have range : digitsValue digits < 2 ^ 64 := by
    by_contra beyond
    rw [word?_eq_none filled all (not_lt.1 beyond)] at h
    cases h
  rw [word?_digits filled all range] at h
  obtain rfl := Option.some.inj h
  exact (UInt64.toNat_ofNat_of_lt range).symm

/-- Behind a plus sign there is nothing but digits. -/
theorem digits_of_word?_plus {rest : List Char} {w : UInt64} (h : word? ('+' :: rest) = some w) :
    rest ≠ [] ∧ ∀ c ∈ rest, c.isDigit = true := by
  cases rest with
  | nil => cases h
  | cons c rest =>
    refine ⟨by simp, ?_⟩
    have behind : naturalLiteral wordBound ('+' :: c :: rest) =
      boundedDigits wordBound .tooLarge 0 (c :: rest) := rfl
    unfold word? at h
    rw [behind] at h
    split at h
    · rename_i n read
      exact isDigit_of_boundedDigits read
    · cases h

/-- The reader of words takes their literals and nothing else. -/
theorem word?_eq_some_iff {s : List Char} {w : UInt64} : word? s = some w ↔ IsWordLiteral s w := by
  refine ⟨fun read => ?_, IsWordLiteral.word?_eq_some⟩
  by_cases plus : s.head? = some '+'
  · obtain ⟨rest, rfl⟩ := List.head?_eq_some_iff.1 plus
    obtain ⟨filled, all⟩ := digits_of_word?_plus read
    rw [word?_plus all] at read
    exact ⟨rest, .inr rfl, filled, all, digitsValue_of_word? filled all read⟩
  · have other : ∀ c ∈ s.head?, c ≠ '+' := by
      rintro c first rfl
      exact plus first
    obtain ⟨filled, all⟩ := digits_of_word? other read
    exact ⟨s, .inl rfl, filled, all, digitsValue_of_word? filled all read⟩

/-- Only the literals of words are read as words. -/
theorem word?_eq_none_iff {s : List Char} : word? s = none ↔ ∀ w, ¬ IsWordLiteral s w := by
  simp only [Option.eq_none_iff_forall_ne_some, ne_eq, word?_eq_some_iff]

end Text

end AccessLatency
