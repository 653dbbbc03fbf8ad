import AccessLatency.Proofs.Binary64.DecimalValue
import AccessLatency.Proofs.Binary64.WholeNumbers
import AccessLatency.Proofs.ByteSize.Grammar
import Mathlib

/-!
# Which sizes are read exactly

Digits with a value below `2 ^ 64` are multiplied as words. Everything else, longer runs of digits
and numbers with a point, is read as a floating-point number, multiplied with the unit and compared
with the largest word. Units are powers of two, so that product loses nothing, and all depends on
what the number was read as. `ofNumber_of_finite` says which products are accepted: the whole
numbers of bytes up to `2 ^ 64`, for the largest word is `2 ^ 64` as a floating-point number.

From there, whole numbers of units are read exactly or refused, but for a few numbers of bytes from
`2 ^ 64` on, `ofText_of_digits`; a whole number with zeros behind a point is read as the
floating-point number nearest to it, `ofText_of_zeros`; and a number with a point that makes a whole
number of bytes is read exactly if that is a floating-point number, `ofText_of_fraction`.
-/

set_option autoImplicit false

namespace AccessLatency

namespace ByteUnit

/-- A unit is a power of two of bytes, a gibibyte at most. -/
theorem bytes_eq_two_pow (unit : ByteUnit) : ∃ k, k ≤ 30 ∧ unit.bytes = 2 ^ k := by
  cases unit with
  | byte => exact ⟨0, by decide, rfl⟩
  | kibibyte => exact ⟨10, by decide, rfl⟩
  | mebibyte => exact ⟨20, by decide, rfl⟩
  | gibibyte => exact ⟨30, le_rfl, rfl⟩

/-- Every unit divides the number of words. -/
theorem exists_two_pow_mul_bytes (unit : ByteUnit) : ∃ k, 2 ^ k * unit.bytes = 2 ^ 64 := by
  obtain ⟨k, hk, power⟩ := unit.bytes_eq_two_pow
  refine ⟨64 - k, ?_⟩
  rw [power, ← Nat.pow_add, Nat.sub_add_cancel (by omega)]

/-- Every unit but the byte itself has two bytes or more. -/
theorem two_le_bytes {unit : ByteUnit} (h : unit ≠ .byte) : 2 ≤ unit.bytes := by
  cases unit with
  | byte => exact absurd rfl h
  | _ => decide

end ByteUnit

namespace ByteSize

/-! ## Sizes through floating-point numbers -/

/-- A number is refused as too large for a word only above `2 ^ 64`, which the largest word is
rounded up to. -/
theorem wordBound_lt_iff {m : Magnitude} :
    Binary64.lt (Binary64.ofNat Text.wordBound) (.finite false m) = true ↔
      2 ^ 64 * Binary64.unit < m.quanta := by
  obtain ⟨bound, double, value⟩ := Binary64.exists_wordBound
  rw [double, ← value, Binary64.lt_iff]
  simp [Binary64.signedQuanta]

section Double

variable {shown number : List Char} {unit : ByteUnit}

/-- A number that is no word and is read as infinite is not whole. -/
theorem ofNumber_of_infinity (noWord : Text.word? number = none)
    (double : Binary64.ofChars? number = some (.infinity false)) :
    ofNumber shown number unit = .error (.notWhole shown) := by
  obtain ⟨k, hk, power⟩ := unit.bytes_eq_two_pow
  unfold ofNumber
  rw [noWord, double]
  dsimp only
  rw [power, Binary64.infinity_mul_two_pow false (by omega)]
  rfl

/-- A number that is read as a floating-point one makes a size if the exact product with the unit is
a whole number of bytes and at most `2 ^ 64`; and `2 ^ 64` itself makes the largest word. -/
theorem ofNumber_of_finite {m : Magnitude} (noWord : Text.word? number = none)
    (double : Binary64.ofChars? number = some (.finite false m)) :
    ofNumber shown number unit =
      if m.quanta * unit.bytes % Binary64.unit = 0 ∧
          m.quanta * unit.bytes ≤ 2 ^ 64 * Binary64.unit then
        .ok (UInt64.ofNat (min (m.quanta * unit.bytes / Binary64.unit) Text.wordBound))
      else .error (.notWhole shown) := by
  obtain ⟨k, hk, power⟩ := unit.bytes_eq_two_pow
  have fits : Binary64.Fits (m.quanta * 2 ^ k) := Binary64.fits_mul_two_pow_iff.2 m.fits
  unfold ofNumber
  rw [noWord, double]
  dsimp only
  rw [power, Binary64.mul_two_pow false m (by omega)]
  by_cases finite : m.quanta * 2 ^ k < Binary64.quantaLimit
  · rw [Binary64.ofQuotient_of_fits false fits finite]
    apply if_congr _ rfl rfl
    rw [Bool.and_eq_true, Bool.not_eq_true', ← Bool.not_eq_true, wordBound_lt_iff, not_lt]
    exact and_congr_left fun _ => beq_iff_eq
  · have large : ¬ m.quanta * 2 ^ k ≤ 2 ^ 64 * Binary64.unit := by
      intro small
      exact finite (small.trans_lt (Binary64.mul_unit_lt_quantaLimit le_rfl (by decide)))
    have infinite : Binary64.ofQuotient false (m.quanta * 2 ^ k) 1 = .infinity false :=
      Binary64.ofQuotient_eq_infinity false
        ((not_lt.1 finite).trans (Binary64.nearestWhole_of_fits fits).ge)
    have refused : ¬ (m.quanta * 2 ^ k % Binary64.unit = 0 ∧
        m.quanta * 2 ^ k ≤ 2 ^ 64 * Binary64.unit) := fun accepted => large accepted.2
    rw [infinite, if_neg refused]
    rfl

/-- A number that is read as the floating-point number nearest to a whole number. -/
theorem ofNumber_of_whole {n : Nat} (noWord : Text.word? number = none)
    (double : Binary64.ofChars? number = some (Binary64.ofNat n)) :
    ofNumber shown number unit =
      if Binary64.nearestWhole n * unit.bytes ≤ 2 ^ 64 then
        .ok (UInt64.ofNat (min (Binary64.nearestWhole n * unit.bytes) Text.wordBound))
      else .error (.notWhole shown) := by
  by_cases finite : Binary64.nearestWhole n * Binary64.unit < Binary64.quantaLimit
  · rw [Binary64.ofNat_eq_finite finite] at double
    rw [ofNumber_of_finite noWord double]
    dsimp only
    rw [Nat.mul_right_comm, Nat.mul_mod_left, Nat.mul_div_cancel _ Binary64.unit_pos]
    apply if_congr _ rfl rfl
    rw [Nat.mul_le_mul_right_iff Binary64.unit_pos]
    exact and_iff_right rfl
  · have large : ¬ Binary64.nearestWhole n * unit.bytes ≤ 2 ^ 64 := by
      intro small
      have most := (Nat.le_mul_of_pos_right _ unit.bytes_pos).trans small
      exact finite (Binary64.mul_unit_lt_quantaLimit most (by decide))
    rw [Binary64.ofNat_eq_infinity (not_lt.1 finite)] at double
    rw [ofNumber_of_infinity noWord double, if_neg large]

end Double

/-! ## Digits without a point -/

/-- Digits are multiplied exactly if the product is a word, and refused if it is not; only a number
of bytes that is so close to `2 ^ 64` that it is rounded down to it makes the largest word. -/
theorem ofNumber_of_digits (shown : List Char) {digits : List Char} (unit : ByteUnit)
    (filled : digits ≠ []) (all : ∀ c ∈ digits, c.isDigit = true) :
    ofNumber shown digits unit =
      if Text.digitsValue digits * unit.bytes < 2 ^ 64 then
        .ok (UInt64.ofNat (Text.digitsValue digits * unit.bytes))
      else if Text.digitsValue digits < 2 ^ 64 then .error (.overflows shown)
      else if unit = .byte ∧ Text.digitsValue digits ≤ 2 ^ 64 + 2 ^ 11 then
        .ok (UInt64.ofNat Text.wordBound)
      else .error (.notWhole shown) := by
  by_cases range : Text.digitsValue digits < 2 ^ 64
  · rw [ofNumber_of_digits_lt shown unit filled all range, if_pos range]
  have large : 2 ^ 64 ≤ Text.digitsValue digits := not_lt.1 range
  have beyond : ¬ Text.digitsValue digits * unit.bytes < 2 ^ 64 :=
    not_lt.2 (large.trans (Nat.le_mul_of_pos_right _ unit.bytes_pos))
  have least : 2 ^ 64 ≤ Binary64.nearestWhole (Text.digitsValue digits) :=
    Binary64.le_nearestWhole (Binary64.fits_two_pow 64) large
  have near := @Binary64.nearestWhole_le_two_pow_iff (Text.digitsValue digits)
  rw [if_neg beyond, if_neg range,
    ofNumber_of_whole (Text.word?_eq_none filled all large) (Binary64.ofChars?_digits filled all)]
  generalize Binary64.nearestWhole (Text.digitsValue digits) = r at least near ⊢
  by_cases byte : unit = .byte
  · subst byte
    have capped : min (r * ByteUnit.byte.bytes) Text.wordBound = Text.wordBound := by
      apply min_eq_right
      change 2 ^ 64 - 1 ≤ r * 1
      omega
    rw [capped]
    apply if_congr _ rfl rfl
    change r * 1 ≤ 2 ^ 64 ↔ _
    rw [Nat.mul_one, near]
    exact (and_iff_right rfl).symm
  · have excess : ¬ r * unit.bytes ≤ 2 ^ 64 := by
      have twice := Nat.mul_le_mul least (ByteUnit.two_le_bytes byte)
      omega
    rw [if_neg excess, if_neg fun accepted => byte accepted.1]

/-- A whole number of units is read exactly if that many bytes are a word, and is refused if they
are not. The exception are the numbers of bytes from `2 ^ 64` to `2 ^ 64 + 2 ^ 11`, which are read as
the largest word. -/
theorem ofText_of_digits {digits : List Char} {unit : ByteUnit} {s : String}
    (filled : digits ≠ []) (all : ∀ c ∈ digits, c.isDigit = true)
    (spelt : Spells digits unit s.toList) :
    (Text.digitsValue digits * unit.bytes < 2 ^ 64 →
        ofText s = .ok (UInt64.ofNat (Text.digitsValue digits * unit.bytes))) ∧
      (2 ^ 64 ≤ Text.digitsValue digits * unit.bytes →
        ¬ (unit = .byte ∧ Text.digitsValue digits ≤ 2 ^ 64 + 2 ^ 11) →
        ofText s = .error (if Text.digitsValue digits < 2 ^ 64 then
          .overflows (Text.trim s.toList) else .notWhole (Text.trim s.toList))) ∧
      (unit = .byte → 2 ^ 64 ≤ Text.digitsValue digits →
        Text.digitsValue digits ≤ 2 ^ 64 + 2 ^ 11 →
        ofText s = .ok (UInt64.ofNat Text.wordBound)) := by
  have numeric := (isNumber_of_digits filled all).numeric
  unfold ofText
  rw [ofChars_of_spells filled numeric spelt, ofNumber_of_digits _ unit filled all]
  refine ⟨fun range => if_pos range, fun beyond far => ?_, fun byte least near => ?_⟩
  · rw [if_neg (not_lt.2 beyond), if_neg far]
    split <;> rfl
  · have beyond := least.trans (Nat.le_mul_of_pos_right _ unit.bytes_pos)
    rw [if_neg (not_lt.2 beyond), if_neg (not_lt.2 least), if_pos ⟨byte, near⟩]

/-- The largest whole number of gibibytes that a word can count is read exactly, and the next one
overflows. -/
theorem ofText_of_digits_gibibytes :
    Spells "17179869183".toList .gibibyte "17179869183 GiB".toList ∧
      ofText "17179869183 GiB" = .ok (UInt64.ofNat (17179869183 * 2 ^ 30)) ∧
      Spells "17179869184".toList .gibibyte "17179869184g".toList ∧
      ofText "17179869184g" = .error (.overflows "17179869184g".toList) := by
  have most : Spells "17179869183".toList .gibibyte "17179869183 GiB".toList :=
    ⟨[], [' '], ['G', 'i', 'B'], [], rfl, by simp, by simp; decide, by simp, by decide⟩
  have beyond : Spells "17179869184".toList .gibibyte "17179869184g".toList :=
    ⟨[], [], ['g'], [], rfl, by simp, by simp, by simp, by decide⟩
  have read := ofText_of_digits (by simp) (by simp) most
  have refused := ofText_of_digits (by simp) (by simp) beyond
  exact ⟨most, read.1 (by decide), beyond, refused.2.1 (by decide) (by decide)⟩

/-- The smallest number of bytes that is no word is read as the largest one. -/
theorem ofText_beyond_word :
    Text.digitsValue "18446744073709551616".toList * ByteUnit.byte.bytes = 2 ^ 64 ∧
      ofText "18446744073709551616" = .ok (UInt64.ofNat (2 ^ 64 - 1)) := by
  decide +kernel

/-! ## Digits with a point -/

/-- The number that digits with a point among them write. -/
def pointValue (whole fraction : List Char) : ℚ :=
  Text.digitsValue whole + Text.digitsValue fraction / 10 ^ fraction.length

section Point

variable {whole fraction : List Char}

/-- Digits with a point are no word, whatever is behind the point. -/
theorem word?_point (filled : whole ++ fraction ≠ [])
    (allWhole : ∀ c ∈ whole, c.isDigit = true) (allFraction : ∀ c ∈ fraction, c.isDigit = true) :
    Text.word? (whole ++ '.' :: fraction) = none := by
  have numeric := (isNumber_of_point filled allWhole allFraction).numeric
  refine Option.eq_none_iff_forall_ne_some.2 fun w word => ?_
  have digits := (digits_of_word? numeric word).2
  exact not_mem_point_of_digits digits (List.mem_append_right whole List.mem_cons_self)

/-- Digits with a point among them are read as the number nearest to what they write. -/
theorem exists_decimal_point (filled : whole ++ fraction ≠ [])
    (allWhole : ∀ c ∈ whole, c.isDigit = true) (allFraction : ∀ c ∈ fraction, c.isDigit = true) :
    ∃ d : Decimal, Binary64.ofChars? (whole ++ '.' :: fraction) = some d.toBinary64 ∧
      d.negative = false ∧ d.quanta = pointValue whole fraction * Binary64.unit := by
  have numeric := (isNumber_of_point filled allWhole allFraction).numeric
  refine ⟨⟨false, Text.digitsValue (whole ++ fraction), -fraction.length⟩, ?_, rfl, ?_⟩
  · rw [ofChars?_of_numeric numeric, Decimal.ofUnsigned?_point false filled allWhole allFraction,
      Option.map_some]
  · unfold Decimal.quanta pointValue
    dsimp only
    generalize (Binary64.unit : ℚ) = one
    rw [Text.digitsValue_append, zpow_neg, zpow_natCast]
    push_cast
    field_simp

/-- A size with a point that is a whole number of bytes is read exactly, if that whole number is a
floating-point one, as all up to `2 ^ 53` are. -/
theorem ofText_of_fraction {unit : ByteUnit} {s : String} {n : Nat}
    (filled : whole ++ fraction ≠ []) (allWhole : ∀ c ∈ whole, c.isDigit = true)
    (allFraction : ∀ c ∈ fraction, c.isDigit = true)
    (spelt : Spells (whole ++ '.' :: fraction) unit s.toList)
    (exact : pointValue whole fraction * unit.bytes = n) (range : n < 2 ^ 64)
    (double : n ≤ 2 ^ 53 ∨ ∃ m : Magnitude, m.quanta = n * Binary64.unit) :
    ofText s = .ok (UInt64.ofNat n) := by
  have isNumber := isNumber_of_point filled allWhole allFraction
  obtain ⟨m, value⟩ : ∃ m : Magnitude, m.quanta = n * Binary64.unit :=
    double.elim Binary64.exists_magnitude_of_le id
  obtain ⟨k, hk, power⟩ := unit.bytes_eq_two_pow
  obtain ⟨part, divided⟩ := Binary64.exists_magnitude_div value (k := k) (by omega)
  rw [← power] at divided
  obtain ⟨d, read, positive, quanta⟩ := exists_decimal_point filled allWhole allFraction
  have units : d.quanta = part.quanta := by
    have pos : (unit.bytes : ℚ) ≠ 0 := by exact_mod_cast unit.bytes_pos.ne'
    apply mul_right_cancel₀ pos
    calc d.quanta * unit.bytes = pointValue whole fraction * unit.bytes * Binary64.unit := by
          rw [quanta, mul_right_comm]
      _ = n * Binary64.unit := by rw [exact]
      _ = part.quanta * unit.bytes := by exact_mod_cast divided.symm
  rw [Decimal.toBinary64_eq_finite units, positive] at read
  have most : n * Binary64.unit ≤ 2 ^ 64 * Binary64.unit := Nat.mul_le_mul_right _ range.le
  have word : n ≤ Text.wordBound := Nat.le_sub_one_of_lt range
  unfold ofText
  rw [ofChars_of_spells isNumber.ne_nil isNumber.numeric spelt,
    ofNumber_of_finite (word?_point filled allWhole allFraction) read, divided, Nat.mul_mod_left,
    Nat.mul_div_cancel _ Binary64.unit_pos, if_pos ⟨rfl, most⟩, min_eq_left word]

/-- The largest size that is half a gibibyte more than some whole number of them. -/
theorem ofText_of_fraction_gibibytes :
    Spells ("17179869183".toList ++ '.' :: ['5']) .gibibyte "17179869183.5 gib".toList ∧
      ofText "17179869183.5 gib" = .ok (UInt64.ofNat 18446744073172680704) := by
  have spelt : Spells ("17179869183".toList ++ '.' :: ['5']) .gibibyte "17179869183.5 gib".toList :=
    ⟨[], [' '], ['g', 'i', 'b'], [], rfl, by simp, by simp; decide, by simp, by decide⟩
  have front : Text.digitsValue "17179869183".toList = 17179869183 := by decide
  have behind : Text.digitsValue ['5'] = 5 := rfl
  have exact : pointValue "17179869183".toList ['5'] * ByteUnit.gibibyte.bytes =
      (18446744073172680704 : ℕ) := by
    norm_num [pointValue, front, behind, ByteUnit.bytes]
  have double : ∃ m : Magnitude, m.quanta = (18446744073172680704 : ℕ) * Binary64.unit :=
    Binary64.exists_magnitude_of_fits (by decide) (k := 64) (by decide) (by decide)
  have read := ofText_of_fraction (by simp) (by simp) (by simp) spelt exact (by decide)
    (.inr double)
  exact ⟨spelt, read⟩

end Point

/-! ## Zeros behind a point -/

/-- Zeros behind a point do not change the number that digits are read as. -/
theorem ofChars?_zeros {digits : List Char} (zeros : Nat) (filled : digits ≠ [])
    (all : ∀ c ∈ digits, c.isDigit = true) :
    Binary64.ofChars? (digits ++ '.' :: List.replicate zeros '0') =
      some (Binary64.ofNat (Text.digitsValue digits)) := by
  obtain ⟨d, read, positive, quanta⟩ := exists_decimal_point
    (List.append_ne_nil_of_left_ne_nil filled (List.replicate zeros '0')) all
    fun _ => Text.isDigit_of_mem_zeros
  have whole : pointValue digits (List.replicate zeros '0') = Text.digitsValue digits := by
    unfold pointValue
    rw [Text.digitsValue_zeros, Nat.cast_zero, zero_div, add_zero]
  rw [read, Decimal.toBinary64_eq_ofNat positive (by rw [quanta, whole])]

/-- Units are powers of two, so rounding a number of them does not take it past `2 ^ 64` bytes. -/
theorem nearestWhole_mul_bytes_le {n : Nat} {unit : ByteUnit} (h : n * unit.bytes ≤ 2 ^ 64) :
    Binary64.nearestWhole n * unit.bytes ≤ 2 ^ 64 := by
  obtain ⟨k, split⟩ := unit.exists_two_pow_mul_bytes
  rw [← split] at h ⊢
  have most := Nat.le_of_mul_le_mul_right h unit.bytes_pos
  exact Nat.mul_le_mul_right _ (Binary64.nearestWhole_le (Binary64.fits_two_pow k) most)

/-- A size that is too large for a word stays too large when its number is rounded. -/
theorem le_nearestWhole_mul_bytes {n : Nat} {unit : ByteUnit} (h : 2 ^ 64 ≤ n * unit.bytes) :
    2 ^ 64 ≤ Binary64.nearestWhole n * unit.bytes := by
  obtain ⟨k, split⟩ := unit.exists_two_pow_mul_bytes
  rw [← split] at h ⊢
  have least := Nat.le_of_mul_le_mul_right h unit.bytes_pos
  exact Nat.mul_le_mul_right _ (Binary64.le_nearestWhole (Binary64.fits_two_pow k) least)

section Zeros

variable {digits : List Char} {unit : ByteUnit}

/-- Zeros behind a point, unless the rounded number of units makes `2 ^ 64` bytes. -/
theorem ofNumber_of_zeros (shown : List Char) (zeros : Nat) (filled : digits ≠ [])
    (all : ∀ c ∈ digits, c.isDigit = true)
    (apart : Binary64.nearestWhole (Text.digitsValue digits) * unit.bytes ≠ 2 ^ 64) :
    ofNumber shown (digits ++ '.' :: List.replicate zeros '0') unit =
      if Text.digitsValue digits * unit.bytes < 2 ^ 64 then
        .ok (UInt64.ofNat (Binary64.nearestWhole (Text.digitsValue digits) * unit.bytes))
      else .error (.notWhole shown) := by
  have noWord := word?_point
    (List.append_ne_nil_of_left_ne_nil filled (List.replicate zeros '0')) all
    fun _ => Text.isDigit_of_mem_zeros
  rw [ofNumber_of_whole noWord (ofChars?_zeros zeros filled all)]
  by_cases range : Text.digitsValue digits * unit.bytes < 2 ^ 64
  · have most := nearestWhole_mul_bytes_le range.le
    have word : Binary64.nearestWhole (Text.digitsValue digits) * unit.bytes ≤ Text.wordBound :=
      Nat.le_sub_one_of_lt (Nat.lt_of_le_of_ne most apart)
    rw [if_pos most, if_pos range, min_eq_left word]
  · have least := le_nearestWhole_mul_bytes (not_lt.1 range)
    rw [if_neg range, if_neg fun most => apart (Nat.le_antisymm most least)]

/-- Digits that make `2 ^ 64` bytes or more are refused, unless they are rounded to just that. -/
theorem exists_error_of_digits (shown : List Char) (filled : digits ≠ [])
    (all : ∀ c ∈ digits, c.isDigit = true)
    (apart : Binary64.nearestWhole (Text.digitsValue digits) * unit.bytes ≠ 2 ^ 64)
    (beyond : ¬ Text.digitsValue digits * unit.bytes < 2 ^ 64) :
    ∃ fault, ofNumber shown digits unit = .error fault := by
  rw [ofNumber_of_digits shown unit filled all, if_neg beyond]
  split
  · exact ⟨_, rfl⟩
  · rename_i large
    refine ⟨_, if_neg ?_⟩
    rintro ⟨rfl, near⟩
    have least := Binary64.le_nearestWhole (Binary64.fits_two_pow 64) (not_lt.1 large)
    have most := Binary64.nearestWhole_le_two_pow_iff.2 near
    exact apart ((Nat.mul_one _).trans (Nat.le_antisymm most least))

/-- Zeros behind a point make a number be read as the floating-point number nearest to it. So a
number that is one itself, and one that makes too many bytes, is read or refused as it is without
them. Left out are the numbers that are rounded to `2 ^ 64` bytes. -/
theorem ofText_of_zeros {zeros : Nat} {s t : String} (filled : digits ≠ [])
    (all : ∀ c ∈ digits, c.isDigit = true)
    (pointed : Spells (digits ++ '.' :: List.replicate zeros '0') unit s.toList)
    (plain : Spells digits unit t.toList)
    (apart : Binary64.nearestWhole (Text.digitsValue digits) * unit.bytes ≠ 2 ^ 64) :
    (Binary64.nearestWhole (Text.digitsValue digits) = Text.digitsValue digits ∨
        2 ^ 64 ≤ Text.digitsValue digits * unit.bytes →
        (ofText s).toOption = (ofText t).toOption) ∧
      (Text.digitsValue digits * unit.bytes < 2 ^ 64 → ofText s =
        .ok (UInt64.ofNat (Binary64.nearestWhole (Text.digitsValue digits) * unit.bytes))) ∧
      (Text.digitsValue digits ≤ 2 ^ 53 →
        Binary64.nearestWhole (Text.digitsValue digits) = Text.digitsValue digits) := by
  have isNumber := isNumber_of_digits filled all
  have isPointed := isNumber_of_point (List.append_ne_nil_of_left_ne_nil filled _) all
    fun _ => @Text.isDigit_of_mem_zeros zeros _
  unfold ofText
  rw [ofChars_of_spells isPointed.ne_nil isPointed.numeric pointed,
    ofChars_of_spells filled isNumber.numeric plain,
    ofNumber_of_zeros (Text.trim s.toList) zeros filled all apart]
  refine ⟨fun same => ?_, fun range => if_pos range, Binary64.nearestWhole_of_le⟩
  by_cases range : Text.digitsValue digits * unit.bytes < 2 ^ 64
  · rw [if_pos range, ofNumber_of_digits _ unit filled all, if_pos range,
      same.resolve_right (not_le.2 range)]
  · obtain ⟨fault, refused⟩ := exists_error_of_digits (Text.trim t.toList) filled all apart range
    rw [if_neg range, refused]
    rfl

/-- Zeros behind the point of a number of kibibytes do not change the size. -/
theorem ofText_of_zeros_kibibytes :
    Spells ("640".toList ++ '.' :: List.replicate 3 '0') .kibibyte "640.000 KiB".toList ∧
      Spells "640".toList .kibibyte "640k".toList ∧
      Binary64.nearestWhole (Text.digitsValue "640".toList) * ByteUnit.kibibyte.bytes ≠ 2 ^ 64 ∧
      (ofText "640.000 KiB").toOption = (ofText "640k").toOption := by
  have pointed : Spells ("640".toList ++ '.' :: List.replicate 3 '0') .kibibyte
      "640.000 KiB".toList :=
    ⟨[], [' '], ['K', 'i', 'B'], [], rfl, by simp, by simp; decide, by simp, by decide⟩
  have plain : Spells "640".toList .kibibyte "640k".toList :=
    ⟨[], [], ['k'], [], rfl, by simp, by simp, by simp, by decide⟩
  have same : Binary64.nearestWhole (Text.digitsValue "640".toList) =
      Text.digitsValue "640".toList := by decide
  have apart : Binary64.nearestWhole (Text.digitsValue "640".toList) *
      ByteUnit.kibibyte.bytes ≠ 2 ^ 64 := by
    rw [same]
    decide
  exact ⟨pointed, plain, apart,
    (ofText_of_zeros (by simp) (by simp) pointed plain apart).1 (Or.inl same)⟩

/-- The smallest whole number that is no floating-point number, with and without zeros. -/
theorem ofText_rounded_zeros :
    ofText "9007199254740993" = .ok (UInt64.ofNat (2 ^ 53 + 1)) ∧
      ofText "9007199254740993.0" = .ok (UInt64.ofNat (2 ^ 53)) := by
  decide +kernel

end Zeros

end ByteSize

end AccessLatency
