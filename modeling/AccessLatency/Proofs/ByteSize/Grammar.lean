import AccessLatency.Proofs.Binary64.ReadBack
import AccessLatency.Proofs.ByteSize.RoundTrip
import Mathlib

/-!
# The grammar of written sizes

A size is written as a number and a suffix, with blank characters around them and between them. The
number is a run of digits with at most one point among them, and a suffix is one of those listed by
`ByteUnit.suffixes` in letters of either case. `Spells` says so without the scanners that the reader
takes a text apart with. A text of this form is read as the number of units that it spells, whatever
the blanks and the letters are, `ofChars_of_spells`; and a text that is refused for its form, not for
the size that it gives, is exactly one that is not of this form: `ofText_grammar`.
-/

set_option autoImplicit false

namespace AccessLatency

namespace Text

/-- Letters are those of the two ASCII alphabets. -/
theorem range_of_isAlpha {c : Char} (h : c.isAlpha = true) :
    (65 ≤ c.val.toNat ∧ c.val.toNat ≤ 90) ∨ (97 ≤ c.val.toNat ∧ c.val.toNat ≤ 122) := by
  simpa [Char.isAlpha, Char.isUpper, Char.isLower, UInt32.le_iff_toNat_le] using h

/-- No letter is blank. -/
theorem isBlank_of_isAlpha {c : Char} (h : c.isAlpha = true) : isBlank c = false := by
  have range := range_of_isAlpha h
  unfold isBlank
  simp only [Bool.or_eq_false_iff, Bool.and_eq_false_iff, decide_eq_false_iff_not,
    beq_eq_false_iff_ne]
  omega

end Text

namespace ByteUnit

/-- The suffixes that stand for a unit, in small letters. -/
def suffixes : ByteUnit → List String
  | .byte => ["", "b"]
  | .kibibyte => ["k", "kb", "kib"]
  | .mebibyte => ["m", "mb", "mib"]
  | .gibibyte => ["g", "gb", "gib"]

/-- A suffix of a unit is read as that unit. -/
theorem ofSuffix?_of_mem {unit : ByteUnit} {suffix : String} (h : suffix ∈ unit.suffixes) :
    ofSuffix? suffix = some unit := by
  revert suffix
  cases unit <;> decide

/-- What is read as a unit is one of its suffixes. -/
theorem mem_suffixes_of_ofSuffix? {unit : ByteUnit} {suffix : String}
    (h : ofSuffix? suffix = some unit) : suffix ∈ unit.suffixes := by
  unfold ofSuffix? at h
  split at h
  · cases h
    simpa [suffixes]
  · split at h
    · cases h
      simpa [suffixes]
    · split at h
      · cases h
        simpa [suffixes]
      · split at h
        · cases h
          simpa [suffixes]
        · cases h

/-- Suffixes are made of letters. -/
theorem isAlpha_of_mem_suffixes {unit : ByteUnit} {suffix : String} (h : suffix ∈ unit.suffixes) :
    ∀ c ∈ suffix.toList, c.isAlpha = true := by
  have letters : ∀ suffix ∈ unit.suffixes, suffix.toList.all Char.isAlpha = true := by
    cases unit <;> decide
  exact List.all_eq_true.1 (letters suffix h)

end ByteUnit

namespace ByteSize

/-! ## Numbers -/

/-- A run of digits with at most one point among them. -/
structure IsNumber (number : List Char) : Prop where
  numeric : ∀ c ∈ number, isNumeric c = true
  digit : ∃ c ∈ number, c.isDigit = true
  point : number.count '.' ≤ 1

/-- A digit may stand in a number. -/
theorem isNumeric_of_isDigit {c : Char} (h : c.isDigit = true) : isNumeric c = true := by
  unfold isNumeric
  rw [h, Bool.true_or]

/-- No letter may stand in a number. -/
theorem isNumeric_of_isAlpha {c : Char} (h : c.isAlpha = true) : isNumeric c = false := by
  have range := Text.range_of_isAlpha h
  have digit : c.isDigit = false := by
    by_contra digit
    have digits : 48 ≤ c.val.toNat ∧ c.val.toNat ≤ 57 := by
      simpa [Char.isDigit, UInt32.le_iff_toNat_le] using digit
    omega
  have point : c ≠ '.' := by
    rintro rfl
    cases h
  unfold isNumeric
  rw [digit, Bool.false_or, beq_eq_false_iff_ne]
  exact point

/-- Among digits there is no point. -/
theorem not_mem_point_of_digits {digits : List Char} (all : ∀ c ∈ digits, c.isDigit = true) :
    '.' ∉ digits := by
  intro member
  exact absurd (all '.' member) (by decide)

/-- Digits are a number, if there are any. -/
theorem isNumber_of_digits {digits : List Char} (filled : digits ≠ [])
    (all : ∀ c ∈ digits, c.isDigit = true) : IsNumber digits where
  numeric c member := isNumeric_of_isDigit (all c member)
  digit := ⟨digits.head filled, List.head_mem filled, all _ (List.head_mem filled)⟩
  point := by
    rw [List.count_eq_zero_of_not_mem (not_mem_point_of_digits all)]
    exact Nat.zero_le 1

/-- Digits with a point before, among or behind them are a number. -/
theorem isNumber_of_point {whole fraction : List Char} (filled : whole ++ fraction ≠ [])
    (allWhole : ∀ c ∈ whole, c.isDigit = true) (allFraction : ∀ c ∈ fraction, c.isDigit = true) :
    IsNumber (whole ++ '.' :: fraction) where
  numeric c member := by
    rcases List.mem_append.1 member with front | behind
    · exact isNumeric_of_isDigit (allWhole c front)
    · rcases List.mem_cons.1 behind with rfl | behind
      · decide
      · exact isNumeric_of_isDigit (allFraction c behind)
  digit := by
    obtain ⟨c, member⟩ := List.exists_mem_of_ne_nil _ filled
    rcases List.mem_append.1 member with front | behind
    · exact ⟨c, List.mem_append_left _ front, allWhole c front⟩
    · exact ⟨c, List.mem_append_right _ (List.mem_cons_of_mem _ behind), allFraction c behind⟩
  point := by
    rw [List.count_append, List.count_cons_self,
      List.count_eq_zero_of_not_mem (not_mem_point_of_digits allWhole),
      List.count_eq_zero_of_not_mem (not_mem_point_of_digits allFraction)]

/-- A number is a run of digits, or two of them with a point between them, not both empty. -/
theorem IsNumber.digits_or_point {number : List Char} (h : IsNumber number) :
    (number ≠ [] ∧ ∀ c ∈ number, c.isDigit = true) ∨
      ∃ whole fraction, number = whole ++ '.' :: fraction ∧ whole ++ fraction ≠ [] ∧
        (∀ c ∈ whole, c.isDigit = true) ∧ ∀ c ∈ fraction, c.isDigit = true := by
  obtain ⟨numeric, ⟨d, member, digit⟩, point⟩ := h
  have digit_or_point : ∀ c ∈ number, c.isDigit = true ∨ c = '.' := by
    intro c hc
    simpa [isNumeric] using numeric c hc
  by_cases pointed : '.' ∈ number
  · obtain ⟨whole, fraction, split⟩ := List.append_of_mem pointed
    subst split
    have none : '.' ∉ whole ∧ '.' ∉ fraction := by
      rw [List.count_append, List.count_cons_self] at point
      exact ⟨List.count_eq_zero.1 (by omega), List.count_eq_zero.1 (by omega)⟩
    have allWhole : ∀ c ∈ whole, c.isDigit = true := by
      intro c hc
      refine (digit_or_point c (List.mem_append_left _ hc)).resolve_right ?_
      rintro rfl
      exact none.1 hc
    have allFraction : ∀ c ∈ fraction, c.isDigit = true := by
      intro c hc
      refine (digit_or_point c (List.mem_append_right _ (List.mem_cons_of_mem _ hc))).resolve_right
        ?_
      rintro rfl
      exact none.2 hc
    refine Or.inr ⟨whole, fraction, rfl, ?_, allWhole, allFraction⟩
    intro empty
    obtain ⟨rfl, rfl⟩ := List.append_eq_nil_iff.1 empty
    obtain rfl := List.mem_singleton.1 member
    cases digit
  · refine Or.inl ⟨List.ne_nil_of_mem member, ?_⟩
    intro c hc
    refine (digit_or_point c hc).resolve_right ?_
    rintro rfl
    exact pointed hc

/-! ## Numeric texts as literals -/

section Numeric

variable {number : List Char}

/-- A number has no letters that could become small ones. -/
theorem map_toLower_of_numeric (numeric : ∀ c ∈ number, isNumeric c = true) :
    number.map Char.toLower = number := by
  have same : ∀ c ∈ number, c.toLower = id c := by
    intro c member
    apply Char.toLower_eq_of_not_isUpper
    intro capital
    have letter : c.isAlpha = true := Bool.or_eq_true_iff.2 (Or.inl capital)
    have numeral := numeric c member
    rw [isNumeric_of_isAlpha letter] at numeral
    cases numeral
  rw [List.map_congr_left same, List.map_id]

/-- The names of numbers all have a letter in common. -/
theorem named?_of_numeric (numeric : ∀ c ∈ number, isNumeric c = true) :
    Binary64.named? false number = none := by
  have other : ∀ name : String, 'n' ∈ name.toList → String.ofList number ≠ name := by
    rintro name letter rfl
    rw [String.toList_ofList] at letter
    exact absurd (numeric 'n' letter) (by decide)
  unfold Binary64.named?
  dsimp only
  rw [map_toLower_of_numeric numeric, if_neg, if_neg (other "nan" (by decide))]
  rintro (same | same)
  · exact other "inf" (by decide) same
  · exact other "infinity" (by decide) same

/-- A number has no sign that could be taken from it. -/
theorem takeSign_of_numeric (numeric : ∀ c ∈ number, isNumeric c = true) :
    Binary64.takeSign number = (false, number) := by
  unfold Binary64.takeSign
  split
  · exact absurd (numeric '+' List.mem_cons_self) (by decide)
  · exact absurd (numeric '-' List.mem_cons_self) (by decide)
  · rfl

/-- A numeric text is read as a decimal without a sign, if at all. -/
theorem ofChars?_of_numeric (numeric : ∀ c ∈ number, isNumeric c = true) :
    Binary64.ofChars? number = (Decimal.ofUnsigned? false number).map Decimal.toBinary64 := by
  unfold Binary64.ofChars?
  rw [takeSign_of_numeric numeric]
  dsimp only
  rw [named?_of_numeric numeric]

/-- A text that is all of a literal's digits, with nothing behind them, has no exponent. -/
theorem exponentSuffix?_of_numeric (numeric : ∀ c ∈ number, isNumeric c = true) :
    Decimal.exponentSuffix? number = if number = [] then some 0 else none := by
  cases number with
  | nil => rfl
  | cons c rest =>
    have letter : ¬ (c = 'e' ∨ c = 'E') := by
      rintro (rfl | rfl)
      · exact absurd (numeric 'e' List.mem_cons_self) (by decide)
      · exact absurd (numeric 'E' List.mem_cons_self) (by decide)
    unfold Decimal.exponentSuffix?
    dsimp only
    rw [if_neg letter, if_neg (List.cons_ne_nil c rest)]

/-- The parts that a literal is taken apart into. -/
theorem parts_of_pointedDigits {s whole fraction rest : List Char}
    (h : Decimal.pointedDigits s = (whole, fraction, rest)) :
    (∀ c ∈ whole, c.isDigit = true) ∧ (∀ c ∈ fraction, c.isDigit = true) ∧
      (s = whole ++ '.' :: (fraction ++ rest) ∨ s = whole ++ rest ∧ fraction = []) := by
  have digits : ∀ t : List Char, ∀ c ∈ Text.leadingDigits t, c.isDigit = true :=
    fun t c member => List.mem_takeWhile_imp member
  have parts := Text.leadingDigits_append_afterDigits s
  unfold Decimal.pointedDigits at h
  dsimp only at h
  split at h
  · rename_i behind point
    cases h
    refine ⟨digits s, digits behind, Or.inl ?_⟩
    rw [Text.leadingDigits_append_afterDigits, ← point, parts]
  · cases h
    exact ⟨digits s, by simp, Or.inr ⟨parts.symm, rfl⟩⟩

/-- What is read as a decimal and is made of digits and points only is a number. -/
theorem isNumber_of_ofUnsigned? (numeric : ∀ c ∈ number, isNumeric c = true) {d : Decimal}
    (h : Decimal.ofUnsigned? false number = some d) : IsNumber number := by
  unfold Decimal.ofUnsigned? at h
  split at h
  rename_i whole fraction rest parts
  obtain ⟨allWhole, allFraction, split⟩ := parts_of_pointedDigits parts
  split at h
  · cases h
  · rename_i filled
    have some : whole ++ fraction ≠ [] := by
      intro empty
      obtain ⟨rfl, rfl⟩ := List.append_eq_nil_iff.1 empty
      exact filled ⟨rfl, rfl⟩
    have tail : ∀ c ∈ rest, isNumeric c = true := by
      intro c member
      apply numeric
      rcases split with split | ⟨split, -⟩ <;> rw [split] <;> simp [member]
    rw [exponentSuffix?_of_numeric tail] at h
    split at h
    · rename_i ended
      subst ended
      rcases split with split | ⟨split, rfl⟩
      · rw [split, List.append_nil]
        exact isNumber_of_point some allWhole allFraction
      · rw [List.append_nil] at split some
        rw [split]
        exact isNumber_of_digits some allWhole
    · cases h

/-- Every number is read as a decimal. -/
theorem ofUnsigned?_of_isNumber (h : IsNumber number) :
    ∃ d, Decimal.ofUnsigned? false number = some d := by
  rcases h.digits_or_point with ⟨filled, all⟩ | ⟨whole, fraction, rfl, filled, allWhole, allFraction⟩
  · exact ⟨_, Decimal.ofUnsigned?_digits false filled all⟩
  · exact ⟨_, Decimal.ofUnsigned?_point false filled allWhole allFraction⟩

/-- A numeric text has no plus sign, so it is a literal of a word only if it is all digits. -/
theorem digits_of_word? (numeric : ∀ c ∈ number, isNumeric c = true) {w : UInt64}
    (h : Text.word? number = some w) : number ≠ [] ∧ ∀ c ∈ number, c.isDigit = true := by
  apply Text.digits_of_word? _ h
  rintro c first rfl
  exact absurd (numeric '+' (List.mem_of_mem_head? first)) (by decide)

/-- Whether a fault is one of the form of a text, not of the size that it gives. -/
def Fault.isFormal : Fault → Bool
  | .unknownSuffix _ => true
  | .invalid _ => true
  | .overflows _ => false
  | .notWhole _ => false

/-- A numeric text is refused for its form exactly if it is no number. -/
theorem formal_ofNumber_iff (numeric : ∀ c ∈ number, isNumeric c = true) (shown : List Char)
    (unit : ByteUnit) :
    (∃ fault, ofNumber shown number unit = .error fault ∧ fault.isFormal = true) ↔
      ¬ IsNumber number := by
  have literal := ofChars?_of_numeric numeric
  unfold ofNumber
  split
  · rename_i w word
    obtain ⟨filled, all⟩ := digits_of_word? numeric word
    have accepted : IsNumber number := isNumber_of_digits filled all
    refine ⟨?_, fun foreign => absurd accepted foreign⟩
    rintro ⟨fault, refused, formal⟩
    dsimp only at refused
    split at refused <;> cases refused
    cases formal
  · split
    · rename_i none
      refine ⟨fun _ accepted => ?_, fun _ => ⟨_, rfl, rfl⟩⟩
      obtain ⟨d, read⟩ := ofUnsigned?_of_isNumber accepted
      rw [literal, read] at none
      cases none
    · rename_i v double
      rw [literal, Option.map_eq_some_iff] at double
      obtain ⟨d, read, -⟩ := double
      have accepted : IsNumber number := isNumber_of_ofUnsigned? numeric read
      refine ⟨?_, fun foreign => absurd accepted foreign⟩
      rintro ⟨fault, refused, formal⟩
      dsimp only at refused
      split at refused <;> cases refused
      cases formal

end Numeric

/-! ## Spellings -/

/-- A text that spells a number of units: the number, and a suffix of the unit in letters of either
case, with blank characters around them and between them. -/
def Spells (number : List Char) (unit : ByteUnit) (s : List Char) : Prop :=
  ∃ front gap name back, s = front ++ (number ++ (gap ++ name) ++ back) ∧
    (∀ c ∈ front, Text.isBlank c = true) ∧ (∀ c ∈ gap, Text.isBlank c = true) ∧
    (∀ c ∈ back, Text.isBlank c = true) ∧ String.ofList (Text.lower name) ∈ unit.suffixes

/-- A text that spells some number of some unit. -/
def IsSize (s : List Char) : Prop :=
  ∃ number unit, IsNumber number ∧ Spells number unit s

/-- A suffix in letters of either case is made of letters. -/
theorem isAlpha_of_lower_mem {unit : ByteUnit} {name : List Char}
    (h : String.ofList (Text.lower name) ∈ unit.suffixes) : ∀ c ∈ name, c.isAlpha = true := by
  intro c member
  rw [← Char.isAlpha_toLower_eq_isAlpha]
  apply ByteUnit.isAlpha_of_mem_suffixes h
  rw [String.toList_ofList]
  exact List.mem_map_of_mem member

/-- White space around a size does not count. -/
theorem ofChars_congr {s t : List Char} (h : Text.trim s = Text.trim t) :
    ofChars s = ofChars t := by
  unfold ofChars
  rw [h]

/-- What is left of the blank characters between a number and its suffix once the text is trimmed:
all of them, or none if there is no suffix. -/
theorem exists_trim_eq_append {number gap name : List Char} (filled : number ≠ [])
    (numeric : ∀ c ∈ number, isNumeric c = true) (hgap : ∀ c ∈ gap, Text.isBlank c = true)
    (letters : ∀ c ∈ name, c.isAlpha = true) :
    ∃ rest, Text.trim (number ++ (gap ++ name)) = number ++ rest ∧ Text.trim rest = name ∧
      (∀ c ∈ rest.head?, isNumeric c = false) ∧ ∀ c ∈ rest.getLast?, Text.isBlank c = false := by
  have solid : ∀ c ∈ name, Text.isBlank c = false := fun c member =>
    Text.isBlank_of_isAlpha (letters c member)
  have nothing : ∀ c ∈ ([] : List Char), Text.isBlank c = true := by simp
  cases name with
  | nil =>
    have ends := Text.trim_append_of_blank number nothing hgap
    rw [List.nil_append, Text.trim_eq_self fun c hc => isBlank_of_isNumeric (numeric c hc)] at ends
    refine ⟨[], ?_, rfl, by simp, by simp⟩
    rw [List.append_nil, List.append_nil, ends]
  | cons d name =>
    have back : ∀ c ∈ (gap ++ d :: name).getLast?, Text.isBlank c = false := by
      rw [List.getLast?_append_of_ne_nil gap (List.cons_ne_nil d name)]
      exact fun c last => solid c (List.mem_of_mem_getLast? last)
    have start := Text.trim_append_of_blank (d :: name) hgap nothing
    rw [List.append_nil, Text.trim_eq_self solid] at start
    refine ⟨gap ++ d :: name, trim_number_append filled numeric back, start, ?_, back⟩
    intro c first
    rcases List.mem_append.1 (List.mem_of_mem_head? first) with blank | letter
    · by_contra numeral
      have solid := isBlank_of_isNumeric (Bool.eq_true_of_not_eq_false numeral)
      rw [hgap c blank] at solid
      cases solid
    · exact isNumeric_of_isAlpha (letters c letter)

/-- A text is read as the number of units that it spells. -/
theorem ofChars_of_spells {number s : List Char} {unit : ByteUnit} (filled : number ≠ [])
    (numeric : ∀ c ∈ number, isNumeric c = true) (spelt : Spells number unit s) :
    ofChars s = ofNumber (Text.trim s) number unit := by
  obtain ⟨front, gap, name, back, rfl, hfront, hgap, hback, suffix⟩ := spelt
  obtain ⟨rest, trimmed, named, stop, solid⟩ :=
    exists_trim_eq_append filled numeric hgap (isAlpha_of_lower_mem suffix)
  have outer := Text.trim_append_of_blank (number ++ (gap ++ name)) hfront hback
  have whole := trim_number_append filled numeric solid
  rw [ofChars_congr (outer.trans (trimmed.trans whole.symm)), outer, trimmed]
  apply ofChars_append filled numeric stop solid
  rw [named]
  exact ByteUnit.ofSuffix?_of_mem suffix

/-! ## Readings -/

/-- What the reader takes for the number and the suffix of a text is spelt by it. -/
theorem spells_of_ofSuffix? {s : List Char} {unit : ByteUnit}
    (h : ByteUnit.ofSuffix?
      (String.ofList (Text.lower (Text.trim (splitNumber (Text.trim s)).2))) = some unit) :
    Spells (splitNumber (Text.trim s)).1 unit s := by
  obtain ⟨front, back, outer, hfront, hback⟩ := Text.exists_eq_append_trim s
  obtain ⟨gap, tail, inner, hgap, htail⟩ :=
    Text.exists_eq_append_trim (splitNumber (Text.trim s)).2
  have parts : (splitNumber (Text.trim s)).1 ++ (splitNumber (Text.trim s)).2 = Text.trim s :=
    List.takeWhile_append_dropWhile
  refine ⟨front, gap, _, tail ++ back, ?_, hfront, hgap, ?_,
    ByteUnit.mem_suffixes_of_ofSuffix? h⟩
  · rw [List.append_assoc, List.append_assoc, ← List.append_assoc _ tail back,
      ← List.append_assoc gap, ← inner, ← List.append_assoc _ _ back, parts]
    exact outer
  · intro c member
    exact (List.mem_append.1 member).elim (htail c) (hback c)

/-- A size is read in two parts, its number and the name of its unit. -/
theorem ofChars_eq (s : List Char) :
    ofChars s =
      match ByteUnit.ofSuffix?
          (String.ofList (Text.lower (Text.trim (splitNumber (Text.trim s)).2))) with
      | none =>
        .error (.unknownSuffix (Text.lower (Text.trim (splitNumber (Text.trim s)).2)))
      | some unit => ofNumber (Text.trim s) (splitNumber (Text.trim s)).1 unit := rfl

/-- A number is not empty. -/
theorem IsNumber.ne_nil {number : List Char} (h : IsNumber number) : number ≠ [] := by
  obtain ⟨c, member, -⟩ := h.digit
  exact List.ne_nil_of_mem member

/-- A text is refused for its form exactly if it spells no number of units. -/
theorem formal_ofChars_iff (s : List Char) :
    (∃ fault, ofChars s = .error fault ∧ fault.isFormal = true) ↔ ¬ IsSize s := by
  constructor
  · rintro ⟨fault, refused, formal⟩ ⟨number, unit, isNumber, spelt⟩
    rw [ofChars_of_spells isNumber.ne_nil isNumber.numeric spelt] at refused
    exact (formal_ofNumber_iff isNumber.numeric _ unit).1 ⟨fault, refused, formal⟩ isNumber
  · intro foreign
    rw [ofChars_eq]
    split
    · exact ⟨_, rfl, rfl⟩
    · rename_i unit suffix
      have numeric : ∀ c ∈ (splitNumber (Text.trim s)).1, isNumeric c = true :=
        fun c member => List.mem_takeWhile_imp member
      rw [formal_ofNumber_iff numeric]
      intro isNumber
      exact foreign ⟨_, unit, isNumber, spells_of_ofSuffix? suffix⟩

/-- The text that a fault quotes does not matter to the size. -/
theorem toOption_ofNumber (shown other number : List Char) (unit : ByteUnit) :
    (ofNumber shown number unit).toOption = (ofNumber other number unit).toOption := by
  unfold ofNumber
  split
  · dsimp only
    split <;> rfl
  · split
    · rfl
    · dsimp only
      split <;> rfl

/-- A text that is read as a size spells a number of units. Every other text is refused, namely for
its form, which no text is that does spell one. And two texts that spell the same number of the same
unit, whatever their blanks and letters are, give the same size or are both refused. -/
theorem ofText_grammar (s : String) :
    ((∃ size, ofText s = .ok size) → IsSize s.toList) ∧
      (¬ IsSize s.toList ↔ ∃ fault, ofText s = .error fault ∧ fault.isFormal = true) ∧
      ∀ (t : String) (number : List Char) (unit : ByteUnit), IsNumber number →
        Spells number unit s.toList → Spells number unit t.toList →
        (ofText s).toOption = (ofText t).toOption := by
  have formal := formal_ofChars_iff s.toList
  refine ⟨?_, formal.symm, ?_⟩
  · rintro ⟨size, read⟩
    by_contra foreign
    obtain ⟨fault, refused, -⟩ := formal.2 foreign
    unfold ofText at read
    rw [refused] at read
    cases read
  · intro t number unit isNumber spelt other
    unfold ofText
    rw [ofChars_of_spells isNumber.ne_nil isNumber.numeric spelt,
      ofChars_of_spells isNumber.ne_nil isNumber.numeric other]
    exact toOption_ofNumber _ _ number unit

/-- Two spellings of one and a half mebibytes are read as the same size. -/
theorem ofText_grammar_mebibytes :
    IsNumber ['1', '.', '5'] ∧ Spells ['1', '.', '5'] .mebibyte " 1.5 MiB".toList ∧
      Spells ['1', '.', '5'] .mebibyte "1.5m\u00a0".toList ∧
      (ofText " 1.5 MiB").toOption = (ofText "1.5m\u00a0").toOption := by
  have whole : ∀ c ∈ ['1'], c.isDigit = true := by simp
  have fraction : ∀ c ∈ ['5'], c.isDigit = true := by simp
  have isNumber : IsNumber ['1', '.', '5'] := isNumber_of_point (by simp) whole fraction
  have spaced : Spells ['1', '.', '5'] .mebibyte " 1.5 MiB".toList :=
    ⟨[' '], [' '], ['M', 'i', 'B'], [], rfl, by simp; decide, by simp; decide, by simp, by decide⟩
  have short : Spells ['1', '.', '5'] .mebibyte "1.5m\u00a0".toList :=
    ⟨[], [], ['m'], ['\u00a0'], rfl, by simp, by simp, by simp; decide, by decide⟩
  exact ⟨isNumber, spaced, short, (ofText_grammar _).2.2 _ _ _ isNumber spaced short⟩

end ByteSize

end AccessLatency
