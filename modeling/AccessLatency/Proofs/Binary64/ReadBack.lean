import AccessLatency.Proofs.Binary64.ShortestDigits
import Mathlib.Tactic

/-!
# Written numbers are read back

The text of a finite number is a literal of that number, sign of zero included: `ofChars?_chars`.
The digits come from `shortest_readsBack`; what is shown here is that laying them out, with zeros
behind them, with a point among them or with a point and zeros in front, does not change what they
are read as. The names of the other numbers are read as numbers that are not finite either.
-/

set_option autoImplicit false

namespace AccessLatency

namespace Decimal

/-- Zeros at the end of the digits are read as an exponent is. -/
theorem toBinary64_mul_pow (negative : Bool) (digits k : Nat) :
    toBinary64 ⟨negative, digits * 10 ^ k, 0⟩ = toBinary64 ⟨negative, digits, k⟩ := by
  have ten : 10 ^ k ≠ 0 := (Nat.pow_pos (by omega)).ne'
  rcases Nat.eq_zero_or_pos digits with rfl | pos
  · simp [toBinary64]
  · have places : ((0 : Int) + length (digits * 10 ^ k)) = k + length digits := by
      unfold length
      rw [Text.length_decimal_mul_pow pos]
      push_cast
      ring
    have filled : digits * 10 ^ k ≠ 0 := Nat.mul_ne_zero pos.ne' ten
    unfold toBinary64 round
    dsimp only
    rw [places]
    simp only [filled, pos.ne', false_or, le_refl, if_true, Int.natCast_nonneg, Int.toNat_zero,
      Int.toNat_natCast, Nat.pow_zero, Nat.mul_one]

/-- A quotient that is rounded to a finite number is rounded to the same magnitude under either
sign. -/
theorem ofQuotient_of_unsigned (negative : Bool) {p q : Nat} {m : Magnitude}
    (h : Binary64.ofQuotient false p q = .finite false m) :
    Binary64.ofQuotient negative p q = .finite negative m := by
  unfold Binary64.ofQuotient at h ⊢
  split at h
  · rename_i bounded
    rw [dif_pos bounded]
    cases h
    rfl
  · cases h

/-- A decimal that is read as a finite number is read as the same magnitude under either sign. -/
theorem toBinary64_of_unsigned (negative : Bool) {digits : Nat} {exponent : Int} {m : Magnitude}
    (h : toBinary64 ⟨false, digits, exponent⟩ = .finite false m) :
    toBinary64 ⟨negative, digits, exponent⟩ = .finite negative m := by
  unfold toBinary64 at h ⊢
  dsimp only at h ⊢
  split at h
  · rename_i small
    rw [if_pos small]
    cases h
    rfl
  · rename_i notSmall
    rw [if_neg notSmall]
    split at h
    · cases h
    · rename_i notLarge
      rw [if_neg notLarge]
      unfold round at h ⊢
      dsimp only at h ⊢
      split at h
      · rename_i whole
        rw [if_pos whole]
        exact ofQuotient_of_unsigned negative h
      · rename_i below
        rw [if_neg below]
        exact ofQuotient_of_unsigned negative h

/-- A run of digits is a literal of the whole number they write. -/
theorem ofUnsigned?_digits (negative : Bool) {digits : List Char} (filled : digits ≠ [])
    (all : ∀ c ∈ digits, c.isDigit = true) :
    ofUnsigned? negative digits = some ⟨negative, Text.digitsValue digits, 0⟩ := by
  have pointed : pointedDigits digits = (digits, [], []) := by
    unfold pointedDigits
    rw [Text.afterDigits_eq_nil all, Text.leadingDigits_eq_self all]
  unfold ofUnsigned?
  rw [pointed]
  simp [filled, exponentSuffix?]

/-- Digits with a point among them are a literal whose exponent counts the digits behind it. -/
theorem ofUnsigned?_point (negative : Bool) {whole fraction : List Char}
    (filled : whole ++ fraction ≠ []) (allWhole : ∀ c ∈ whole, c.isDigit = true)
    (allFraction : ∀ c ∈ fraction, c.isDigit = true) :
    ofUnsigned? negative (whole ++ '.' :: fraction) =
      some ⟨negative, Text.digitsValue (whole ++ fraction), -fraction.length⟩ := by
  have point : ∀ c, ('.' :: fraction).head? = some c → c.isDigit = false := by
    intro c h
    obtain rfl : '.' = c := by simpa using h
    rfl
  have pointed : pointedDigits (whole ++ '.' :: fraction) = (whole, fraction, []) := by
    unfold pointedDigits
    rw [Text.leadingDigits_append allWhole point, Text.afterDigits_append allWhole point]
    simp only [Text.leadingDigits_eq_self allFraction, Text.afterDigits_eq_nil allFraction]
  have some : ¬ (whole.isEmpty = true ∧ fraction.isEmpty = true) := by
    rw [List.isEmpty_iff, List.isEmpty_iff, ← List.append_eq_nil_iff]
    exact filled
  unfold ofUnsigned?
  rw [pointed]
  dsimp only
  rw [if_neg some]
  simp [exponentSuffix?]

end Decimal

namespace Binary64

namespace Digits

/-- Digits written in full begin with a digit. -/
theorem head_positional (d : Digits) :
    ∃ c rest, d.positional = c :: rest ∧ c.isDigit = true := by
  obtain ⟨c, rest, cons⟩ := List.exists_cons_of_ne_nil (Text.decimal_ne_nil d.digits)
  have digit : c.isDigit = true := Text.isDigit_of_mem_decimal (n := d.digits) (by simp [cons])
  unfold positional
  dsimp only
  rw [cons]
  split
  · exact ⟨c, _, List.cons_append, digit⟩
  · split
    · rename_i inside
      obtain ⟨k, hk⟩ := Nat.exists_eq_succ_of_ne_zero (n := _) (by omega :
        (d.exponent + ((c :: rest).length : Int)).toNat ≠ 0)
      rw [hk]
      exact ⟨c, _, rfl, digit⟩
    · exact ⟨'0', _, rfl, rfl⟩

/-- Zeros behind digits are read as the exponent of as many places. -/
theorem ofUnsigned?_zeros_behind (negative : Bool) (digits k : Nat) :
    (Decimal.ofUnsigned? negative (Text.decimal digits ++ List.replicate k '0')).map
        Decimal.toBinary64 = some (Decimal.toBinary64 ⟨negative, digits, k⟩) := by
  have all : ∀ c ∈ Text.decimal digits ++ List.replicate k '0', c.isDigit = true := by
    intro c hc
    rcases List.mem_append.1 hc with h | h
    · exact Text.isDigit_of_mem_decimal h
    · exact Text.isDigit_of_mem_zeros h
  have value :
      Text.digitsValue (Text.decimal digits ++ List.replicate k '0') = digits * 10 ^ k := by
    rw [Text.digitsValue_append, Text.digitsValue_decimal, Text.digitsValue_zeros,
      List.length_replicate, Nat.add_zero]
  rw [Decimal.ofUnsigned?_digits negative (by simp) all, Option.map_some, value,
    Decimal.toBinary64_mul_pow]

/-- A point inside digits counts the places behind it. -/
theorem ofUnsigned?_point_inside (negative : Bool) {digits k : Nat}
    (h : k < (Text.decimal digits).length) :
    Decimal.ofUnsigned? negative ((Text.decimal digits).take ((Text.decimal digits).length - k) ++
        '.' :: (Text.decimal digits).drop ((Text.decimal digits).length - k)) =
      some ⟨negative, digits, -(k : Int)⟩ := by
  have all : ∀ c ∈ Text.decimal digits, c.isDigit = true := fun _ => Text.isDigit_of_mem_decimal
  generalize hp : (Text.decimal digits).length - k = point
  have filled : (Text.decimal digits).take point ≠ [] := by
    intro none
    have empty := congrArg List.length none
    rw [List.length_take, List.length_nil] at empty
    omega
  have behind : (((Text.decimal digits).drop point).length : Int) = k := by
    rw [List.length_drop]
    omega
  rw [Decimal.ofUnsigned?_point negative (List.append_ne_nil_of_left_ne_nil filled _)
    (fun c hc => all c (List.mem_of_mem_take hc))
    fun c hc => all c (List.mem_of_mem_drop hc), List.take_append_drop, Text.digitsValue_decimal,
    behind]

/-- A point in front of digits, with zeros up to it, counts the places behind it. -/
theorem ofUnsigned?_zeros_before (negative : Bool) {digits k : Nat}
    (h : (Text.decimal digits).length ≤ k) :
    Decimal.ofUnsigned? negative ('0' :: '.' ::
        (List.replicate (k - (Text.decimal digits).length) '0' ++ Text.decimal digits)) =
      some ⟨negative, digits, -(k : Int)⟩ := by
  generalize hz : List.replicate (k - (Text.decimal digits).length) '0' = zeros
  have fraction : ∀ c ∈ zeros ++ Text.decimal digits, c.isDigit = true := by
    intro c hc
    rcases List.mem_append.1 hc with front | digit
    · rw [← hz] at front
      exact Text.isDigit_of_mem_zeros front
    · exact Text.isDigit_of_mem_decimal digit
  have filled : ['0'] ++ (zeros ++ Text.decimal digits) ≠ [] := List.cons_ne_nil '0' _
  have layout := Decimal.ofUnsigned?_point negative filled (by simp) fraction
  rw [List.cons_append, List.nil_append] at layout
  have behind : ((zeros ++ Text.decimal digits).length : Int) = k := by
    rw [← hz, List.length_append, List.length_replicate]
    omega
  have value : Text.digitsValue (['0'] ++ (zeros ++ Text.decimal digits)) = digits := by
    have front : Text.digitsValue ['0'] = 0 := rfl
    rw [← hz, Text.digitsValue_append, Text.digitsValue_append, front, Text.digitsValue_zeros,
      Text.digitsValue_decimal, Nat.zero_mul, Nat.zero_mul, Nat.zero_add, Nat.zero_add]
  rw [layout, value, behind]

/-- Digits written in full are read as the digits themselves. -/
theorem ofUnsigned?_positional (negative : Bool) (d : Digits) :
    (Decimal.ofUnsigned? negative d.positional).map Decimal.toBinary64 =
      some (Decimal.toBinary64 ⟨negative, d.digits, d.exponent⟩) := by
  obtain ⟨digits, exponent⟩ := d
  unfold positional
  dsimp only
  by_cases whole : 0 ≤ exponent
  · obtain ⟨k, rfl⟩ := Int.eq_ofNat_of_zero_le whole
    rw [if_pos whole, Int.toNat_natCast]
    exact ofUnsigned?_zeros_behind negative digits k
  · rw [if_neg whole]
    obtain ⟨k, rfl⟩ := Int.exists_eq_neg_ofNat (not_le.1 whole).le
    by_cases inside : 0 < -(k : Int) + (Text.decimal digits).length
    · have point : (-(k : Int) + (Text.decimal digits).length).toNat =
          (Text.decimal digits).length - k := by omega
      rw [if_pos inside, point, ofUnsigned?_point_inside negative (by omega), Option.map_some]
    · have front : (-(-(k : Int) + (Text.decimal digits).length)).toNat =
          k - (Text.decimal digits).length := by omega
      rw [if_neg inside, front, ofUnsigned?_zeros_before negative (by omega), Option.map_some]

/-- Digits written in full hold nothing but digits and a point. -/
theorem mem_positional {d : Digits} {c : Char} (h : c ∈ d.positional) :
    c.isDigit = true ∨ c = '.' := by
  have digit : c ∈ Text.decimal d.digits → c.isDigit = true := Text.isDigit_of_mem_decimal
  unfold positional at h
  dsimp only at h
  split at h
  · rcases List.mem_append.1 h with front | behind
    · exact Or.inl (digit front)
    · exact Or.inl (Text.isDigit_of_mem_zeros behind)
  · split at h
    · rcases List.mem_append.1 h with front | behind
      · exact Or.inl (digit (List.mem_of_mem_take front))
      · rcases List.mem_cons.1 behind with point | behind
        · exact Or.inr point
        · exact Or.inl (digit (List.mem_of_mem_drop behind))
    · rcases List.mem_cons.1 h with rfl | h
      · exact Or.inl rfl
      · rcases List.mem_cons.1 h with point | h
        · exact Or.inr point
        · rcases List.mem_append.1 h with zero | behind
          · exact Or.inl (Text.isDigit_of_mem_zeros zero)
          · exact Or.inl (digit behind)

end Digits

/-- No name of a number starts with a digit. -/
theorem named?_eq_none (negative : Bool) {c : Char} (rest : List Char) (h : c.isDigit = true) :
    named? negative (c :: rest) = none := by
  have lower : c.toLower = c := by
    unfold Char.toLower
    rw [dif_neg]
    intro capital
    simp only [Char.isDigit, Bool.and_eq_true, decide_eq_true_eq, ge_iff_le] at h
    exact absurd (UInt32.le_trans capital.1 h.2) (by decide)
  have other : ∀ l : Char, ∀ name : List Char, l.isDigit = false →
      ¬ String.ofList ((c :: rest).map Char.toLower) = String.ofList (l :: name) := by
    intro l name letter same
    have heads := String.ofList_inj.1 same
    rw [List.map_cons, lower, List.cons_eq_cons] at heads
    rw [heads.1, letter] at h
    cases h
  unfold named?
  dsimp only
  rw [if_neg, if_neg (other 'n' ['a', 'n'] rfl)]
  rintro (h | h)
  · exact other 'i' ['n', 'f'] rfl h
  · exact other 'i' ['n', 'f', 'i', 'n', 'i', 't', 'y'] rfl h

/-- The sign in front of a digit is read back. -/
theorem takeSign_signText (negative : Bool) {c : Char} (rest : List Char) (h : c.isDigit = true) :
    takeSign (signText negative ++ c :: rest) = (negative, c :: rest) := by
  cases negative with
  | true => rfl
  | false =>
    have plus : c ≠ '+' := by
      rintro rfl
      cases h
    have minus : c ≠ '-' := by
      rintro rfl
      cases h
    unfold signText takeSign
    simp [plus, minus]

/-- A signed text that starts with a digit is read as a decimal literal. -/
theorem ofChars?_signText (negative : Bool) {c : Char} (rest : List Char)
    (h : c.isDigit = true) :
    ofChars? (signText negative ++ c :: rest) =
      (Decimal.ofUnsigned? negative (c :: rest)).map Decimal.toBinary64 := by
  unfold ofChars?
  rw [takeSign_signText negative rest h]
  dsimp only
  rw [named?_eq_none negative rest h]

/-- The text of a finite number is read as that number. -/
theorem ofChars?_chars {v : Binary64} (h : v.isFinite = true) : ofChars? v.chars = some v := by
  cases v with
  | nan s p => cases h
  | infinity s => cases h
  | finite s m =>
    change ofChars? (signText s ++ magnitudeText m) = _
    unfold magnitudeText
    split
    · rename_i none
      have zero : m = ⟨0, fits_of_lt (by decide), quantaLimit_pos⟩ := by
        obtain ⟨quanta, _, _⟩ := m
        subst none
        rfl
      rw [ofChars?_signText s [] rfl, Decimal.ofUnsigned?_digits s (by simp) (by simp), zero]
      rfl
    · rename_i some
      obtain ⟨c, rest, cons, digit⟩ := Digits.head_positional (shortest .upper m.quanta)
      have layout := Digits.ofUnsigned?_positional s (shortest .upper m.quanta)
      have back := Digits.readsBack_iff.1 (shortest_readsBack .upper (Nat.pos_of_ne_zero some))
      rw [cons, ofChars?_signText s rest digit, ← cons, layout,
        Decimal.toBinary64_of_unsigned s back]

/-- The characters that numbers are written with, digits apart. -/
def numeralMarks : List Char := ['-', '.', 'N', 'a', 'i', 'n', 'f']

/-- A sign is written as nothing but a minus. -/
theorem mem_signText {negative : Bool} {c : Char} (h : c ∈ signText negative) : c = '-' := by
  cases negative with
  | true => exact List.mem_singleton.1 h
  | false => cases h

/-- A written number holds nothing but digits, a sign, a point and the letters of names. -/
theorem mem_chars {v : Binary64} {c : Char} (h : c ∈ v.chars) :
    c.isDigit = true ∨ c ∈ numeralMarks := by
  have sign : ∀ negative, c ∈ signText negative → c ∈ numeralMarks := by
    intro negative hc
    rw [mem_signText hc]
    simp [numeralMarks]
  cases v with
  | nan s p =>
    right
    revert h
    unfold chars numeralMarks
    simp only [List.mem_cons]
    tauto
  | infinity s =>
    right
    rcases List.mem_append.1 h with front | name
    · exact sign s front
    · revert name
      unfold numeralMarks
      simp only [List.mem_cons]
      tauto
  | finite s m =>
    rcases List.mem_append.1 h with front | body
    · exact Or.inr (sign s front)
    · unfold magnitudeText at body
      split at body
      · obtain rfl : c = '0' := List.mem_singleton.1 body
        exact Or.inl rfl
      · rcases Digits.mem_positional body with digit | rfl
        · exact Or.inl digit
        · right
          simp [numeralMarks]

/-- The text of a number that is not finite is read as a number that is not finite. -/
theorem ofChars?_chars_of_not_finite {v : Binary64} (h : v.isFinite = false) :
    ∃ w, ofChars? v.chars = some w ∧ w.isFinite = false := by
  cases v with
  | nan s p => exact ⟨.nan false, rfl, rfl⟩
  | infinity s => cases s <;> exact ⟨_, rfl, rfl⟩
  | finite s m => cases h

end Binary64

end AccessLatency
