import AccessLatency.ByteSize
import AccessLatency.Proofs.Text.Digits
import AccessLatency.Proofs.Text.Split
import Mathlib.Tactic

/-!
# Written sizes are read back

A size is written in the largest unit that it is a positive whole number of, and zero in bytes;
`bytes_le_largest` says that no other unit is larger. A number with a suffix behind it is read as
that number of the units that the suffix stands for, `ofChars_append`, and the symbol of every unit
is such a suffix, in whatever letters. Since the unit divides the size, nothing is lost on the way:
`ofText_toText`.
-/

set_option autoImplicit false

namespace AccessLatency

namespace ByteUnit

/-! ## The unit of a size -/

/-- No unit is empty. -/
theorem bytes_pos (unit : ByteUnit) : 0 < unit.bytes := by cases unit <;> decide

/-- A unit is used for a size if it is no larger and divides it. -/
theorem divides_iff {unit : ByteUnit} {size : UInt64} :
    unit.divides size = true ↔ unit.bytes ≤ size.toNat ∧ unit.bytes ∣ size.toNat := by
  unfold divides
  rw [Bool.and_eq_true, decide_eq_true_iff, beq_iff_eq, Nat.dvd_iff_mod_eq_zero]

/-- The unit of a size divides it, or is that of bytes, for lack of a larger one. -/
theorem largest_cases (size : UInt64) :
    largest size = .byte ∨ (largest size).divides size = true := by
  unfold largest
  cases found : multiples.find? fun unit => unit.divides size with
  | none => exact .inl rfl
  | some unit =>
    have divides := List.find?_some found
    exact .inr divides

/-- The unit that a size is written in divides it. -/
theorem bytes_largest_dvd (size : UInt64) : (largest size).bytes ∣ size.toNat := by
  rcases largest_cases size with byte | divides
  · rw [byte]
    exact Nat.one_dvd _
  · exact (divides_iff.1 divides).2

/-- The unit that a size is written in is no larger, unless the size is zero. -/
theorem bytes_largest_le {size : UInt64} (h : size ≠ 0) : (largest size).bytes ≤ size.toNat := by
  rcases largest_cases size with byte | divides
  · have pos : size.toNat ≠ 0 := fun zero => h (UInt64.toNat_inj.1 zero)
    rw [byte]
    exact Nat.pos_of_ne_zero pos
  · exact (divides_iff.1 divides).1

/-- Zero is written in bytes. -/
theorem largest_zero : largest 0 = .byte := by decide

/-- No unit that divides a size is larger than the unit of the size. -/
theorem bytes_le_largest {unit : ByteUnit} {size : UInt64} (h : unit.divides size = true) :
    unit.bytes ≤ (largest size).bytes := by
  by_cases byte : unit = .byte
  · subst byte
    exact bytes_pos (largest size)
  have member : unit ∈ multiples := by
    cases unit with
    | byte => exact absurd rfl byte
    | _ => decide
  have descending : multiples.Pairwise fun a b => b.bytes < a.bytes := by decide
  unfold largest
  -- The units are tried from the largest on, so those behind the first that divides are smaller.
  cases found : multiples.find? fun unit => unit.divides size with
  | none => exact absurd h (List.find?_eq_none.1 found unit member)
  | some first =>
    obtain ⟨-, before, behind, split, refused⟩ := List.find?_eq_some_iff_append.1 found
    rw [split] at member descending
    rcases List.mem_append.1 member with earlier | rest
    · have skipped := refused unit earlier
      rw [h] at skipped
      cases skipped
    · rcases List.mem_cons.1 rest with rfl | later
      · exact Nat.le_refl _
      · have smaller := (List.pairwise_cons.1 (List.pairwise_append.1 descending).2.1).1
        exact (smaller unit later).le

/-- The symbol of a unit is read back as the unit. -/
theorem ofSuffix?_symbol (unit : ByteUnit) :
    ofSuffix? (String.ofList (Text.lower unit.symbol.toList)) = some unit := by
  cases unit <;> decide

end ByteUnit

namespace ByteSize

/-! ## A number with a suffix -/

/-- No character of a number is blank. -/
theorem isBlank_of_isNumeric {c : Char} (h : isNumeric c = true) : Text.isBlank c = false := by
  rcases Bool.or_eq_true_iff.1 h with digit | point
  · exact Text.isBlank_of_isDigit digit
  · rw [beq_iff_eq.1 point]
    decide

/-- The number in front of a rest that does not go on with it. -/
theorem splitNumber_append {number rest : List Char} (numeric : ∀ c ∈ number, isNumeric c = true)
    (stop : ∀ c ∈ rest.head?, isNumeric c = false) : splitNumber (number ++ rest) = (number, rest) := by
  unfold splitNumber
  rw [List.takeWhile_append_of_pos numeric, List.dropWhile_append_of_pos numeric]
  cases rest with
  | nil => simp
  | cons c rest => simp [stop c rfl]

/-- A number with something behind it that does not end in a blank character. -/
theorem trim_number_append {number rest : List Char} (filled : number ≠ [])
    (numeric : ∀ c ∈ number, isNumeric c = true)
    (back : ∀ c ∈ rest.getLast?, Text.isBlank c = false) :
    Text.trim (number ++ rest) = number ++ rest := by
  apply Text.trim_of_ends
  · rw [List.head?_append_of_ne_nil _ filled]
    intro c first
    exact isBlank_of_isNumeric (numeric c (List.mem_of_mem_head? first))
  · intro c last
    rw [List.getLast?_append] at last
    cases ending : rest.getLast? with
    | some d =>
      rw [ending] at last
      obtain rfl := Option.some.inj last
      exact back d ending
    | none =>
      rw [ending] at last
      exact isBlank_of_isNumeric (numeric c (List.mem_of_mem_getLast? last))

/-- A number with a suffix behind it is read as that number of the suffix's units. -/
theorem ofChars_append {number rest : List Char} {unit : ByteUnit} (filled : number ≠ [])
    (numeric : ∀ c ∈ number, isNumeric c = true) (stop : ∀ c ∈ rest.head?, isNumeric c = false)
    (back : ∀ c ∈ rest.getLast?, Text.isBlank c = false)
    (suffix : ByteUnit.ofSuffix? (String.ofList (Text.lower (Text.trim rest))) = some unit) :
    ofChars (number ++ rest) = ofNumber (number ++ rest) number unit := by
  unfold ofChars
  dsimp only
  rw [trim_number_append filled numeric back, splitNumber_append numeric stop]
  dsimp only
  rw [suffix]

/-- Digits with a value below `2 ^ 64` are read exactly if so many units are a word of bytes, and
are refused otherwise. -/
theorem ofNumber_of_digits_lt (shown : List Char) {digits : List Char} (unit : ByteUnit)
    (filled : digits ≠ []) (all : ∀ c ∈ digits, c.isDigit = true)
    (range : Text.digitsValue digits < 2 ^ 64) :
    ofNumber shown digits unit =
      if Text.digitsValue digits * unit.bytes < 2 ^ 64 then
        .ok (UInt64.ofNat (Text.digitsValue digits * unit.bytes))
      else .error (.overflows shown) := by
  have value : (UInt64.ofNat (Text.digitsValue digits)).toNat = Text.digitsValue digits :=
    UInt64.toNat_ofNat_of_lt' range
  unfold ofNumber
  rw [Text.word?_digits filled all range]
  dsimp only
  rw [value]
  exact if_congr Nat.le_iff_lt_add_one rfl rfl

/-- The digits of a number of units are read exactly if that many bytes are a word. -/
theorem ofNumber_decimal (shown : List Char) {n : Nat} {unit : ByteUnit}
    (h : n * unit.bytes < 2 ^ 64) :
    ofNumber shown (Text.decimal n) unit = .ok (UInt64.ofNat (n * unit.bytes)) := by
  have range : n < 2 ^ 64 := Nat.lt_of_le_of_lt (Nat.le_mul_of_pos_right n unit.bytes_pos) h
  rw [ofNumber_of_digits_lt shown unit (Text.decimal_ne_nil n) (fun _ => Text.isDigit_of_mem_decimal)
    (by rwa [Text.digitsValue_decimal]), Text.digitsValue_decimal, if_pos h]

/-! ## Written sizes -/

/-- A size is written as the number of its units, a blank and the symbol of the unit. -/
theorem toList_toText (size : UInt64) :
    (toText size).toList =
      Text.decimal (size.toNat / (ByteUnit.largest size).bytes) ++
        ' ' :: (ByteUnit.largest size).symbol.toList := by
  unfold toText
  rw [String.toList_append, String.toList_append, Nat.toString_eq_ofList_toDigits,
    String.toList_ofList, List.append_assoc]
  rfl

/-- A symbol has no white space around it. -/
theorem trim_symbol (unit : ByteUnit) : Text.trim unit.symbol.toList = unit.symbol.toList := by
  cases unit <;> decide

/-- A size is read back from what it is written as. -/
theorem reads_toText (size : UInt64) : ofText (toText size) = .ok size := by
  have whole : size.toNat / (ByteUnit.largest size).bytes * (ByteUnit.largest size).bytes =
      size.toNat := Nat.div_mul_cancel (ByteUnit.bytes_largest_dvd size)
  have numeric : ∀ c ∈ Text.decimal (size.toNat / (ByteUnit.largest size).bytes),
      isNumeric c = true := by
    intro c member
    unfold isNumeric
    rw [Text.isDigit_of_mem_decimal member, Bool.true_or]
  have front : ∀ c ∈ (' ' :: (ByteUnit.largest size).symbol.toList).head?,
      isNumeric c = false := by
    rintro c ⟨⟩
    decide
  have back : ∀ unit : ByteUnit, ∀ c ∈ (' ' :: unit.symbol.toList).getLast?,
      Text.isBlank c = false := by
    intro unit c last
    cases unit <;>
      · obtain rfl := Option.some.inj last
        decide
  have suffix : Text.trim (' ' :: (ByteUnit.largest size).symbol.toList) =
      (ByteUnit.largest size).symbol.toList := by
    rw [Text.trim_cons (by decide), trim_symbol]
  unfold ofText
  rw [toList_toText, ofChars_append (Text.decimal_ne_nil _) numeric front (back _)
    (by rw [suffix, ByteUnit.ofSuffix?_symbol]), ofNumber_decimal, whole, UInt64.ofNat_toNat]
  rw [whole]
  exact UInt64.toNat_lt size

/-- A written size is read back as it is. It is written as a whole number and the symbol of a unit,
the largest one that divides the size and has no more bytes than it; zero is written in bytes. -/
theorem ofText_toText (size : UInt64) :
    ofText (toText size) = .ok size ∧
      ∃ unit : ByteUnit,
        toText size = toString (size.toNat / unit.bytes) ++ " " ++ unit.symbol ∧
        unit.bytes ∣ size.toNat ∧ (size = 0 → unit = .byte) ∧
        (size ≠ 0 → unit.bytes ≤ size.toNat) ∧
        ∀ other : ByteUnit, other.bytes ∣ size.toNat → other.bytes ≤ size.toNat →
          other.bytes ≤ unit.bytes := by
  refine ⟨reads_toText size, ByteUnit.largest size, rfl, ByteUnit.bytes_largest_dvd size,
    ?_, ByteUnit.bytes_largest_le, ?_⟩
  · rintro rfl
    exact ByteUnit.largest_zero
  · intro other divides fits
    exact ByteUnit.bytes_le_largest (ByteUnit.divides_iff.2 ⟨fits, divides⟩)

end ByteSize

end AccessLatency
