import AccessLatency.Proofs.Json.Spelling
import Mathlib.Data.List.DropRight
import Mathlib.Tactic

/-!
# JSON texts are read as what they spell

Every text of the grammar `Spells` is read as the value that it spells, `parseChars_of_spells`. A
reader takes a spelling from the front of a text and leaves the rest; the rest of a number must not
go on with a sign that could belong to the number, which is what `Stops` says.
-/

set_option autoImplicit false

namespace AccessLatency

namespace Json

/-! ## White space -/

/-- A gap in front of a text is skipped. -/
theorem skipSpace_gap {gap : List Char} (space : IsGap gap) (s : List Char) :
    skipSpace (gap ++ s) = skipSpace s :=
  List.dropWhile_append_of_pos space

/-- Nothing is skipped in front of a character that is no space. -/
theorem skipSpace_cons {c : Char} (solid : isSpace c = false) (s : List Char) :
    skipSpace (c :: s) = c :: s := by
  unfold skipSpace
  rw [List.dropWhile_cons_of_neg (by simp [solid])]

/-- A gap in front of a character is left out, and the character is kept. -/
theorem skipSpace_gap_cons {gap : List Char} (space : IsGap gap) {c : Char}
    (solid : isSpace c = false) (s : List Char) : skipSpace (gap ++ c :: s) = c :: s := by
  rw [skipSpace_gap space, skipSpace_cons solid]

/-- Behind what is skipped there is nothing more to skip. -/
theorem skipSpace_skipSpace (s : List Char) : skipSpace (skipSpace s) = skipSpace s :=
  List.dropWhile_idempotent isSpace s

/-- Skipping makes no text longer. -/
theorem length_skipSpace_le (s : List Char) : (skipSpace s).length ≤ s.length :=
  List.length_dropWhile_le isSpace s

/-! ## Strings -/

/-- Four hexadecimal digits are read in front of any text. -/
theorem hexQuad_append {digits : List Char} {unit : Nat} (read : hexQuad digits = some (unit, []))
    (rest : List Char) : hexQuad (digits ++ rest) = some (unit, rest) := by
  unfold hexQuad at read
  split at read
  · rename_i a b c d left
    split at read
    · rename_i ha hb hc hd
      cases read
      simp only [List.cons_append, List.nil_append]
      unfold hexQuad
      simp [ha, hb, hc, hd]
    · cases read
  · cases read

/-- A character that has a sign of its own is read from this sign. -/
theorem escape_short {sign c : Char} (member : (sign, c) ∈ shortEscapes) (rest : List Char) :
    escape (sign :: rest) = some (c, rest) := by
  simp only [shortEscapes, List.mem_cons, List.not_mem_nil, or_false, Prod.mk.injEq] at member
  rcases member with ⟨rfl, rfl⟩ | ⟨rfl, rfl⟩ | ⟨rfl, rfl⟩ | ⟨rfl, rfl⟩ | ⟨rfl, rfl⟩ |
    ⟨rfl, rfl⟩ | ⟨rfl, rfl⟩ | ⟨rfl, rfl⟩ <;> rfl

/-- A character of a string is read from each of its spellings. -/
theorem stringBody_char {c : Char} {t : List Char} (spelled : SpellsChar c t) (fuel : Nat)
    (s : List Char) :
    stringBody (fuel + 1) (t ++ s) = (stringBody fuel s).map fun (cs, left) => (c :: cs, left) := by
  cases spelled with
  | plain notQuote notBackslash printable =>
    rw [List.singleton_append, stringBody, if_neg notQuote, if_neg notBackslash, if_neg printable]
  | short member =>
    simp only [List.cons_append, List.nil_append]
    rw [stringBody, if_neg (by decide), if_pos rfl, escape_short member]
  | unit read single =>
    simp only [List.cons_append]
    rw [stringBody, if_neg (by decide), if_pos rfl, escape, unicodeEscape, hexQuad_append read]
    dsimp only
    rw [if_neg (by omega), if_neg (by omega)]
  | pair readHigh readLow isHigh isLow =>
    simp only [List.cons_append, List.append_assoc]
    rw [stringBody, if_neg (by decide), if_pos rfl, escape, unicodeEscape, hexQuad_append readHigh]
    dsimp only
    rw [if_pos isHigh]
    simp only []
    rw [hexQuad_append readLow]
    dsimp only
    rw [if_pos isLow]

/-- No character is written as nothing. -/
theorem SpellsChar.length_pos {c : Char} {t : List Char} (h : SpellsChar c t) : 0 < t.length := by
  cases h <;> simp

/-- There are no more characters than signs they are written with. -/
theorem SpellsChars.length_le {cs body : List Char} (h : SpellsChars cs body) :
    cs.length ≤ body.length := by
  induction h with
  | nil => exact Nat.le_refl 0
  | cons first others ih =>
    have := first.length_pos
    rw [List.length_cons, List.length_append]
    omega

/-- Characters are read back up to the quotation mark behind them. -/
theorem stringBody_chars {cs body : List Char} (spelled : SpellsChars cs body) {fuel : Nat}
    (enough : cs.length < fuel) (rest : List Char) :
    stringBody fuel (body ++ '"' :: rest) = some (cs, rest) := by
  induction spelled generalizing fuel with
  | nil =>
    cases fuel with
    | zero => cases enough
    | succ fuel => rfl
  | cons first others ih =>
    cases fuel with
    | zero => cases enough
    | succ fuel =>
      rw [List.append_assoc, stringBody_char first, ih (Nat.lt_of_succ_lt_succ enough)]
      rfl

/-- A string is read back from each way of writing it. -/
theorem stringReader_of_spells {s : String} {body : List Char}
    (spelled : SpellsChars s.toList body) (rest : List Char) :
    stringReader (body ++ '"' :: rest) = some (s, rest) := by
  have enough : s.toList.length < (body ++ '"' :: rest).length + 1 := by
    have := spelled.length_le
    rw [List.length_append]
    omega
  unfold stringReader
  rw [stringBody_chars spelled enough, Option.map_some]
  dsimp only
  rw [String.ofList_toList]

/-! ## Numbers -/

/-- A text does not go on with a sign that could belong to a number in front of it. -/
def Stops (rest : List Char) : Prop :=
  ∀ c, rest.head? = some c → c.isDigit = false ∧ c ≠ '.' ∧ c ≠ 'e' ∧ c ≠ 'E'

/-- A number ends in front of a gap. -/
theorem stops_gap {gap : List Char} (space : IsGap gap) : Stops gap := by
  intro c head
  have blank := space c (List.mem_of_mem_head? head)
  simp only [isSpace, Bool.or_eq_true, beq_iff_eq] at blank
  rcases blank with ((rfl | rfl) | rfl) | rfl <;> decide

/-- A number ends in front of a gap with a character behind it that belongs to no number. -/
theorem stops_gap_cons {gap : List Char} (space : IsGap gap) {c : Char}
    (h : c.isDigit = false ∧ c ≠ '.' ∧ c ≠ 'e' ∧ c ≠ 'E') (rest : List Char) :
    Stops (gap ++ c :: rest) := by
  cases gap with
  | nil =>
    intro d head
    cases head
    exact h
  | cons first others =>
    intro d head
    exact stops_gap space d head

/-- Digits are gathered up to their end, as long as their value is a word. -/
theorem gatherDigits_append {start count : Nat} {digits rest : List Char}
    (all : ∀ c ∈ digits, c.isDigit = true)
    (range : Text.digitsValueFrom start digits ≤ Text.wordBound) (stop : Stops rest) :
    gatherDigits start count (digits ++ rest) =
      (Text.digitsValueFrom start digits, count + digits.length, rest) := by
  induction digits generalizing start count with
  | nil =>
    cases rest with
    | nil => rfl
    | cons c rest =>
      have other := (stop c rfl).1
      rw [List.nil_append, gatherDigits, other]
      rfl
  | cons c digits ih =>
    have digit : c.isDigit = true := all c (by simp)
    have next : 10 * start + Text.digitValue c ≤ Text.wordBound :=
      (Text.le_digitsValueFrom _ digits).trans range
    rw [List.cons_append, gatherDigits, if_pos (by simp [digit, next]),
      ih (fun d member => all d (List.mem_cons_of_mem c member)) range, List.length_cons]
    simp only [Prod.mk.injEq, and_true]
    exact ⟨rfl, by omega⟩

/-- A whole number that is a word is read back from its digits. -/
theorem unsignedNumber_decimal (negative : Bool) {n : Nat} (range : n ≤ Text.wordBound)
    {rest : List Char} (stop : Stops rest) :
    unsignedNumber negative (Text.decimal n ++ rest) = some (integer negative n, rest) := by
  rcases Nat.eq_zero_or_pos n with rfl | positive
  · show unsignedNumber negative ('0' :: rest) = _
    cases rest with
    | nil => rfl
    | cons d rest =>
      obtain ⟨noDigit, noPoint, noSmall, noLarge⟩ := stop d rfl
      rw [unsignedNumber, if_neg (by decide), if_pos rfl]
      split
      · simp_all
      · simp_all
      · simp_all
  · obtain ⟨c, tail, front, notZero⟩ := Text.head_decimal_ne_zero positive
    have all : ∀ d ∈ Text.decimal n, d.isDigit = true := fun d => Text.isDigit_of_mem_decimal
    have digit : c.isDigit = true := all c (by simp [front])
    have value : Text.digitsValueFrom 0 (Text.decimal n) = n := Text.digitsValue_decimal n
    have gathered : gatherDigits 0 0 (Text.decimal n ++ rest) =
        (n, 0 + (Text.decimal n).length, rest) := by
      rw [gatherDigits_append all (by omega) stop, value]
    have noDigits : Text.leadingDigits ([] ++ rest) = [] :=
      Text.leadingDigits_append (by simp) fun d head => (stop d head).1
    have after : Text.afterDigits ([] ++ rest) = rest :=
      Text.afterDigits_append (by simp) fun d head => (stop d head).1
    rw [List.nil_append] at noDigits after
    rw [front, List.cons_append] at gathered ⊢
    unfold unsignedNumber
    simp only [digit, notZero, gathered, noDigits, after, Bool.not_true, Bool.false_eq_true,
      if_false, List.isEmpty_nil, Bool.or_false]
    cases rest with
    | nil => rfl
    | cons d rest =>
      obtain ⟨-, noPoint, noSmall, noLarge⟩ := stop d rfl
      split
      · rename_i same
        exact absurd (List.cons.inj same).1 noPoint
      · simp [noSmall, noLarge]

/-- A whole number that is a word is read back with its sign. -/
theorem numberReader_whole (negative : Bool) {n : Nat} (range : n ≤ Text.wordBound)
    {rest : List Char} (stop : Stops rest) :
    numberReader (minusSign negative ++ Text.decimal n ++ rest) =
      some (integer negative n, rest) := by
  have read := unsignedNumber_decimal negative range stop
  cases negative with
  | true => exact read
  | false =>
    obtain ⟨c, tail, front⟩ := List.exists_cons_of_ne_nil (Text.decimal_ne_nil n)
    have digit : c.isDigit = true :=
      Text.isDigit_of_mem_decimal (by rw [front]; exact List.mem_cons_self)
    show numberReader (Text.decimal n ++ rest) = _
    rw [front, List.cons_append] at read ⊢
    unfold numberReader
    split
    · rename_i same
      rw [(List.cons.inj same).1] at digit
      cases digit
    · exact read

/-! ## Values -/

/-- A whole number begins with its sign or with a digit. -/
theorem head_whole (negative : Bool) (n : Nat) :
    ∃ c tail, minusSign negative ++ Text.decimal n = c :: tail ∧
      (c = '-' ∨ c.isDigit = true) := by
  cases negative with
  | true => exact ⟨'-', _, rfl, .inl rfl⟩
  | false =>
    obtain ⟨c, tail, front⟩ := List.exists_cons_of_ne_nil (Text.decimal_ne_nil n)
    have digit : c.isDigit = true :=
      Text.isDigit_of_mem_decimal (by rw [front]; exact List.mem_cons_self)
    exact ⟨c, tail, front, .inr digit⟩

/-- A value that begins with a minus or a digit is read as a number. -/
theorem valueReader_number {c : Char} (head : c = '-' ∨ c.isDigit = true)
    (container : Option (Reader Json)) (s : List Char) :
    valueReader container (c :: s) =
      (numberReader (c :: s)).map fun (n, left) => (.number n, left) := by
  unfold valueReader
  split <;> simp_all

/-- A value begins with a character that is neither white space nor the end of an array. -/
theorem Spells.head {depth : Nat} {j : Json} {t : List Char} (h : Spells depth (.value j) t) :
    ∃ c tail, t = c :: tail ∧ isSpace c = false ∧ c ≠ ']' := by
  cases h with
  | whole negative range =>
    obtain ⟨c, tail, front, kind⟩ := head_whole negative _
    refine ⟨c, tail, front, ?_, ?_⟩
    · rw [Bool.eq_false_iff]
      intro space
      simp only [isSpace, Bool.or_eq_true, beq_iff_eq] at space
      rcases space with ((rfl | rfl) | rfl) | rfl <;> simp at kind
    · rintro rfl
      simp at kind
  | string spelled =>
    obtain ⟨body, -, rfl⟩ := spelled
    exact ⟨_, _, rfl, by decide, by decide⟩
  | _ => exact ⟨_, _, rfl, by decide, by decide⟩

/-- There is no space to skip in front of a value. -/
theorem Spells.skipSpace_append {depth : Nat} {j : Json} {t : List Char}
    (h : Spells depth (.value j) t) (rest : List Char) : skipSpace (t ++ rest) = t ++ rest := by
  obtain ⟨c, tail, rfl, solid, -⟩ := h.head
  exact skipSpace_cons solid (tail ++ rest)

/-- There is no space to skip in front of a string. -/
theorem SpellsString.skipSpace_append {key : String} {k : List Char} (h : SpellsString key k)
    (rest : List Char) : skipSpace (k ++ rest) = k ++ rest := by
  obtain ⟨body, -, rfl⟩ := h
  exact skipSpace_cons (by decide) (body ++ ['"'] ++ rest)

/-- Items are read alike with and without the space in front of them. -/
theorem itemsReader_skipSpace (item : Reader Json) (fuel : Nat) (s : List Char) :
    itemsReader item fuel (skipSpace s) = itemsReader item fuel s := by
  cases fuel with
  | zero => rfl
  | succ fuel => rw [itemsReader, itemsReader, skipSpace_skipSpace]

/-- Fields are read alike with and without the space in front of them. -/
theorem fieldsReader_skipSpace (item : Reader Json) (fuel : Nat) (done : Fields) (s : List Char) :
    fieldsReader item fuel done (skipSpace s) = fieldsReader item fuel done s := by
  cases fuel with
  | zero => rfl
  | succ fuel => rw [fieldsReader, fieldsReader, fieldReader, fieldReader, skipSpace_skipSpace]

/-- A field is read from a key and a value in each way of writing them, with gaps around the key and
in front of the value. -/
theorem fieldReader_of_spells {item : Reader Json} {key : String} {j : Json}
    {before k gap inner s rest : List Char} (spaceBefore : IsGap before)
    (spelled : SpellsString key k) (space : IsGap gap) (spaceInner : IsGap inner)
    (solid : skipSpace s = s) (read : item s = some (j, rest)) :
    fieldReader item (before ++ (k ++ (gap ++ ':' :: (inner ++ s)))) =
      some ((key, j), rest) := by
  obtain ⟨body, chars, rfl⟩ := spelled
  unfold fieldReader
  simp only [List.cons_append, List.append_assoc, List.nil_append]
  rw [skipSpace_gap_cons spaceBefore (by decide)]
  simp only [stringReader_of_spells chars]
  rw [skipSpace_gap_cons space (by decide)]
  show (item (skipSpace (inner ++ s))).map _ = _
  rw [skipSpace_gap spaceInner, solid, read]
  rfl

/-- How the readers for a depth deal with a part in front of a rest. The readers of items and of
fields spend one unit of fuel on each, and get as many units as there are characters. -/
def Reads (depth : Nat) : Part → List Char → Prop
  | .value j, t => ∀ rest, Stops rest → nestedReader depth (t ++ rest) = some (j, rest)
  | .items items, t => ∀ rest fuel, (skipSpace (t ++ rest)).length < fuel →
    itemsReader (nestedReader depth) fuel (t ++ rest) = some (items, rest)
  | .fields given, t => ∀ rest fuel done, (skipSpace (t ++ rest)).length < fuel →
    fieldsReader (nestedReader depth) fuel done (t ++ rest) =
      some (Fields.insertAll done given, rest)

/-- A value is dealt with at a depth if the reader for values deals with it, whatever containers are
read with. -/
theorem reads_value {depth : Nat} {j : Json} {t : List Char}
    (read : ∀ container rest, Stops rest → valueReader container (t ++ rest) = some (j, rest)) :
    Reads depth (.value j) t := by
  intro rest stop
  obtain ⟨container, same⟩ := exists_valueReader depth
  rw [same, read container rest stop]

/-- What is inside of an array does not begin with the end of an array. -/
theorem Spells.head?_items {depth : Nat} {items : List Json} {t : List Char}
    (h : Spells depth (.items items) t) (rest : List Char) :
    (skipSpace (t ++ rest)).head? ≠ some ']' := by
  cases h with
  | lastItem spaceBefore item spaceBehind =>
    obtain ⟨c, tail, rfl, solid, other⟩ := item.head
    simp only [List.cons_append, List.append_assoc]
    rw [skipSpace_gap_cons spaceBefore solid]
    simpa using other
  | nextItem spaceBefore item spaceBehind others =>
    obtain ⟨c, tail, rfl, solid, other⟩ := item.head
    simp only [List.cons_append, List.append_assoc]
    rw [skipSpace_gap_cons spaceBefore solid]
    simpa using other

/-- What is inside of an object does not begin with the end of an object. -/
theorem Spells.head?_fields {depth : Nat} {given : Fields} {t : List Char}
    (h : Spells depth (.fields given) t) (rest : List Char) :
    (skipSpace (t ++ rest)).head? ≠ some '\x7d' := by
  cases h with
  | lastField spaceBefore spelled =>
    obtain ⟨body, -, rfl⟩ := spelled
    simp only [List.cons_append, List.append_assoc]
    rw [skipSpace_gap_cons spaceBefore (by decide)]
    simp
  | nextField spaceBefore spelled =>
    obtain ⟨body, -, rfl⟩ := spelled
    simp only [List.cons_append, List.append_assoc]
    rw [skipSpace_gap_cons spaceBefore (by decide)]
    simp

/-- An array whose items are dealt with is read. -/
theorem arrayReader_of_reads {depth : Nat} {items : List Json} {t : List Char}
    (h : Spells depth (.items items) t) (reads : Reads depth (.items items) t) (rest : List Char) :
    arrayReader (nestedReader depth) (t ++ rest) = some (.array items, rest) := by
  have read := reads rest (skipSpace (t ++ rest)).length.succ (Nat.lt_succ_self _)
  rw [← itemsReader_skipSpace] at read
  unfold arrayReader
  split
  · rename_i same
    exact absurd (congrArg List.head? same) (h.head?_items rest)
  · rw [read]
    rfl

/-- An object whose fields are dealt with is read, each field inserted among those in front of
it. -/
theorem objectReader_of_reads {depth : Nat} {given : Fields} {t : List Char}
    (h : Spells depth (.fields given) t) (reads : Reads depth (.fields given) t)
    (rest : List Char) :
    objectReader (nestedReader depth) (t ++ rest) =
      some (.object (Fields.insertAll [] given), rest) := by
  have read := reads rest (skipSpace (t ++ rest)).length.succ [] (Nat.lt_succ_self _)
  rw [← fieldsReader_skipSpace] at read
  unfold objectReader
  split
  · rename_i same
    exact absurd (congrArg List.head? same) (h.head?_fields rest)
  · rw [read]
    rfl

/-- The readers read what is spelled. -/
theorem reads_of_spells {depth : Nat} {part : Part} {t : List Char} (h : Spells depth part t) :
    Reads depth part t := by
  -- Behind an item or a field stands a gap and then a comma or an end, so a number stops there.
  induction h with
  | wordNull => exact reads_value fun _ _ _ => rfl
  | wordTrue => exact reads_value fun _ _ _ => rfl
  | wordFalse => exact reads_value fun _ _ _ => rfl
  | @whole _ negative n range =>
    refine reads_value fun container rest stop => ?_
    obtain ⟨c, tail, front, kind⟩ := head_whole negative n
    have read := numberReader_whole negative range stop
    rw [front, List.cons_append] at read ⊢
    rw [valueReader_number kind, read]
    rfl
  | string spelled =>
    refine reads_value fun container rest _ => ?_
    obtain ⟨body, chars, rfl⟩ := spelled
    simp only [List.cons_append, List.append_assoc, List.nil_append]
    rw [valueReader, stringReader_of_spells chars]
    rfl
  | emptyArray space =>
    intro rest _
    simp only [List.cons_append, List.append_assoc, List.nil_append]
    show arrayReader _ _ = _
    unfold arrayReader
    rw [skipSpace_gap_cons space (by decide)]
    rfl
  | array inside ih =>
    intro rest _
    exact arrayReader_of_reads inside ih rest
  | emptyObject space =>
    intro rest _
    simp only [List.cons_append, List.append_assoc, List.nil_append]
    show objectReader _ _ = _
    unfold objectReader
    rw [skipSpace_gap_cons space (by decide)]
    rfl
  | object inside ih =>
    intro rest _
    exact objectReader_of_reads inside ih rest
  | lastItem spaceBefore item spaceBehind ih =>
    intro rest fuel enough
    cases fuel with
    | zero => cases enough
    | succ fuel =>
      simp only [List.cons_append, List.append_assoc, List.nil_append]
      rw [itemsReader, skipSpace_gap spaceBefore, item.skipSpace_append,
        ih _ (stops_gap_cons spaceBehind (by decide) rest)]
      dsimp only
      rw [skipSpace_gap_cons spaceBehind (by decide)]
      rfl
  | @nextItem _ _ _ _ _ _ ts spaceBefore item spaceBehind others ih ihOthers =>
    intro rest fuel enough
    cases fuel with
    | zero => cases enough
    | succ fuel =>
      simp only [List.cons_append, List.append_assoc] at enough ⊢
      rw [skipSpace_gap spaceBefore, item.skipSpace_append] at enough
      rw [itemsReader, skipSpace_gap spaceBefore, item.skipSpace_append,
        ih _ (stops_gap_cons spaceBehind (by decide) _)]
      dsimp only
      rw [skipSpace_gap_cons spaceBehind (by decide)]
      show (itemsReader _ fuel (_ ++ rest)).map _ = _
      rw [ihOthers rest fuel ?_]
      · rfl
      · have := length_skipSpace_le (ts ++ rest)
        simp only [List.length_append, List.length_cons] at enough this
        omega
  | lastField spaceBefore spelled space spaceInner value spaceBehind ih =>
    intro rest fuel done enough
    cases fuel with
    | zero => cases enough
    | succ fuel =>
      have read := ih _ (stops_gap_cons spaceBehind (c := '\x7d') (by decide) rest)
      simp only [List.cons_append, List.append_assoc, List.nil_append]
      rw [fieldsReader, fieldReader_of_spells spaceBefore spelled space spaceInner
        (value.skipSpace_append _) read]
      dsimp only
      rw [skipSpace_gap_cons spaceBehind (by decide)]
      rfl
  | @nextField _ _ _ _ _ _ _ _ _ _ ts spaceBefore spelled space spaceInner value spaceBehind others
      ih ihOthers =>
    intro rest fuel done enough
    cases fuel with
    | zero => cases enough
    | succ fuel =>
      have read := ih _ (stops_gap_cons spaceBehind (c := ',') (by decide) (ts ++ rest))
      simp only [List.cons_append, List.append_assoc] at enough ⊢
      rw [skipSpace_gap spaceBefore, spelled.skipSpace_append] at enough
      rw [fieldsReader, fieldReader_of_spells spaceBefore spelled space spaceInner
        (value.skipSpace_append _) read]
      dsimp only
      rw [skipSpace_gap_cons spaceBehind (by decide)]
      show fieldsReader _ fuel _ (_ ++ rest) = _
      rw [ihOthers rest fuel _ ?_]
      · rfl
      · have := length_skipSpace_le (ts ++ rest)
        simp only [List.length_append, List.length_cons] at enough this
        omega

/-- A text of the grammar is read as the value it stands for. -/
theorem parseChars_of_spells {j : Json} {before t behind : List Char} (spaceBefore : IsGap before)
    (h : Spells deepest (.value j) t) (spaceBehind : IsGap behind) :
    parseChars (before ++ (t ++ behind)) = some j := by
  have blank : skipSpace behind = [] := by
    have skipped := skipSpace_gap spaceBehind []
    rwa [List.append_nil] at skipped
  have read : nestedReader deepest (t ++ behind) = some (j, behind) :=
    reads_of_spells h behind (stops_gap spaceBehind)
  unfold parseChars
  rw [skipSpace_gap spaceBefore, h.skipSpace_append, read]
  dsimp only
  rw [blank]
  rfl

/-- A text of an object is read as the object whose fields are set one after the other. -/
theorem parse_of_spellsObject {given : Fields} {before t behind : List Char}
    (spaceBefore : IsGap before) (h : SpellsObject (deepest - 1) given t)
    (spaceBehind : IsGap behind) :
    parse (String.ofList (before ++ (t ++ behind))) =
      some (.object (Fields.insertAll [] given)) := by
  unfold parse
  rw [String.toList_ofList]
  exact parseChars_of_spells spaceBefore h.spells spaceBehind

/-- An object that is written is read back with its fields set one after the other. -/
theorem parse_text_object {given : Fields}
    (values : ∀ depth, ∀ field ∈ given, Spells depth (.value field.2) (chars field.2)) :
    parse (text (.object given)) = some (.object (Fields.insertAll [] given)) := by
  have spelled : SpellsObject (deepest - 1) given (chars (.object given)) := by
    cases given with
    | nil =>
      rw [chars]
      exact .empty isGap_nil
    | cons first rest =>
      rw [chars]
      exact .filled (spells_fields first rest (values (deepest - 1)))
  have read := parse_of_spellsObject isGap_nil spelled isGap_nil
  rw [List.append_nil, List.nil_append] at read
  exact read

end Json

end AccessLatency
