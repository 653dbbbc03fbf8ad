import AccessLatency.Proofs.Json.Fields
import AccessLatency.Proofs.Text.Digits
import Mathlib.Tactic

/-!
# How JSON values are spelled

`Spells` is the grammar of the texts that stand for a value. White space may stand between all
parts, a character of a string may stand for itself or be escaped, and the fields of an object come
in any order, where the last one with a key counts. The numbers of this grammar are whole. A text of
an object has all the fields that it is given, also those that do not count: `SpellsObject`.

The text that a value is written as is one of its spellings; `spells_fields` says so for the fields
of an object whose values are themselves written so.
-/

set_option autoImplicit false

namespace AccessLatency

namespace Json

/-- White space between the parts of a text, or nothing. -/
def IsGap (gap : List Char) : Prop := ∀ c ∈ gap, isSpace c = true

/-- Nothing is a gap. -/
theorem isGap_nil : IsGap [] := by
  intro c member
  cases member

/-! ## Strings -/

/-- The signs behind a backslash that stand for a character, with this character. -/
def shortEscapes : List (Char × Char) :=
  [('"', '"'), ('\\', '\\'), ('/', '/'), ('b', Char.ofNat 8), ('f', Char.ofNat 12), ('n', '\n'),
   ('r', '\r'), ('t', '\t')]

/-- The ways to write a character of a string: as itself, behind a backslash, by the number of its
unit, or by the numbers of its two units. -/
inductive SpellsChar : Char → List Char → Prop where
  | plain {c : Char} (notQuote : c ≠ '"') (notBackslash : c ≠ '\\') (printable : ¬ c.val < 32) :
    SpellsChar c [c]
  | short {sign c : Char} (member : (sign, c) ∈ shortEscapes) : SpellsChar c ['\\', sign]
  | unit {digits : List Char} {unit : Nat} (read : hexQuad digits = some (unit, []))
      (single : unit < 0xD800 ∨ 0xE000 ≤ unit) :
    SpellsChar (Char.ofNat unit) ('\\' :: 'u' :: digits)
  | pair {first second : List Char} {high low : Nat} (readHigh : hexQuad first = some (high, []))
      (readLow : hexQuad second = some (low, [])) (isHigh : 0xD800 ≤ high ∧ high < 0xDC00)
      (isLow : 0xDC00 ≤ low ∧ low < 0xE000) :
    SpellsChar (Char.ofNat (0x10000 + (high - 0xD800) * 0x400 + (low - 0xDC00)))
      ('\\' :: 'u' :: (first ++ '\\' :: 'u' :: second))

/-- The ways to write characters one after the other inside a string. -/
inductive SpellsChars : List Char → List Char → Prop where
  | nil : SpellsChars [] []
  | cons {c : Char} {rest t ts : List Char} (first : SpellsChar c t) (others : SpellsChars rest ts) :
    SpellsChars (c :: rest) (t ++ ts)

/-- The ways to write a string in quotation marks. -/
def SpellsString (s : String) (text : List Char) : Prop :=
  ∃ body, SpellsChars s.toList body ∧ text = '"' :: (body ++ ['"'])

/-! ## Values -/

/-- The sign in front of a whole number. -/
def minusSign (negative : Bool) : List Char := if negative then ['-'] else []

/-- The parts of a text: a value, and what is inside of an array or an object up to its end, from
in front of an item or a field on. -/
inductive Part where
  | value (j : Json)
  | items (items : List Json)
  | fields (fields : Fields)

/-- The texts of a part with containers nested up to a depth. -/
inductive Spells : Nat → Part → List Char → Prop where
  | wordNull {depth : Nat} : Spells depth (.value .null) ['n', 'u', 'l', 'l']
  | wordTrue {depth : Nat} : Spells depth (.value (.bool true)) ['t', 'r', 'u', 'e']
  | wordFalse {depth : Nat} : Spells depth (.value (.bool false)) ['f', 'a', 'l', 's', 'e']
  | whole {depth : Nat} (negative : Bool) {n : Nat} (range : n ≤ Text.wordBound) :
    Spells depth (.value (.number (integer negative n))) (minusSign negative ++ Text.decimal n)
  | string {depth : Nat} {s : String} {t : List Char} (spelled : SpellsString s t) :
    Spells depth (.value (.string s)) t
  | emptyArray {depth : Nat} {gap : List Char} (space : IsGap gap) :
    Spells (depth + 1) (.value (.array [])) ('[' :: (gap ++ [']']))
  | array {depth : Nat} {items : List Json} {t : List Char} (inside : Spells depth (.items items) t) :
    Spells (depth + 1) (.value (.array items)) ('[' :: t)
  | emptyObject {depth : Nat} {gap : List Char} (space : IsGap gap) :
    Spells (depth + 1) (.value (.object [])) ('\x7b' :: (gap ++ ['\x7d']))
  | object {depth : Nat} {given : Fields} {t : List Char} (inside : Spells depth (.fields given) t) :
    Spells (depth + 1) (.value (.object (Fields.insertAll [] given))) ('\x7b' :: t)
  | lastItem {depth : Nat} {j : Json} {before t behind : List Char} (spaceBefore : IsGap before)
      (item : Spells depth (.value j) t) (spaceBehind : IsGap behind) :
    Spells depth (.items [j]) (before ++ (t ++ (behind ++ [']'])))
  | nextItem {depth : Nat} {j : Json} {others : List Json} {before t behind ts : List Char}
      (spaceBefore : IsGap before) (item : Spells depth (.value j) t) (spaceBehind : IsGap behind)
      (rest : Spells depth (.items others) ts) :
    Spells depth (.items (j :: others)) (before ++ (t ++ (behind ++ ',' :: ts)))
  | lastField {depth : Nat} {key : String} {j : Json} {before k gap inner t behind : List Char}
      (spaceBefore : IsGap before) (spelled : SpellsString key k) (space : IsGap gap)
      (spaceInner : IsGap inner) (value : Spells depth (.value j) t) (spaceBehind : IsGap behind) :
    Spells depth (.fields [(key, j)])
      (before ++ (k ++ (gap ++ ':' :: (inner ++ (t ++ (behind ++ ['\x7d']))))))
  | nextField {depth : Nat} {key : String} {j : Json} {others : Fields}
      {before k gap inner t behind ts : List Char}
      (spaceBefore : IsGap before) (spelled : SpellsString key k) (space : IsGap gap)
      (spaceInner : IsGap inner) (value : Spells depth (.value j) t) (spaceBehind : IsGap behind)
      (rest : Spells depth (.fields others) ts) :
    Spells depth (.fields ((key, j) :: others))
      (before ++ (k ++ (gap ++ ':' :: (inner ++ (t ++ (behind ++ ',' :: ts))))))

/-- The texts of an object by its fields as they are given, in their order and with all that have
the same key. -/
inductive SpellsObject (depth : Nat) : Fields → List Char → Prop where
  | empty {gap : List Char} (space : IsGap gap) :
    SpellsObject depth [] ('\x7b' :: (gap ++ ['\x7d']))
  | filled {given : Fields} {t : List Char} (inside : Spells depth (.fields given) t) :
    SpellsObject depth given ('\x7b' :: t)

/-- A text of an object by its fields as they are given is one of the object that they make. -/
theorem SpellsObject.spells {depth : Nat} {given : Fields} {t : List Char}
    (h : SpellsObject depth given t) :
    Spells (depth + 1) (.value (.object (Fields.insertAll [] given))) t := by
  cases h with
  | empty space => exact .emptyObject space
  | filled inside => exact .object inside

/-! ## The texts that values are written as -/

/-- The characters without a sign of their own that are not printable are written by their number. -/
theorem hexQuad_hexPair {n : Nat} (h : n < 32) :
    hexQuad (['0', '0'] ++ hexPair n) = some (n, []) := by
  revert n
  decide

/-- The way in which a character is written is one of the ways to write it. -/
theorem spellsChar_escapeChar (c : Char) : SpellsChar c (escapeChar c) := by
  unfold escapeChar
  split
  · rename_i quote
    exact .short (by simp [quote, shortEscapes])
  split
  · rename_i backslash
    exact .short (by simp [backslash, shortEscapes])
  split
  · rename_i code
    obtain rfl : c = Char.ofNat 8 := Char.ext code
    exact .short (by decide)
  split
  · rename_i code
    obtain rfl : c = '\t' := Char.ext code
    exact .short (by decide)
  split
  · rename_i code
    obtain rfl : c = '\n' := Char.ext code
    exact .short (by decide)
  split
  · rename_i code
    obtain rfl : c = Char.ofNat 12 := Char.ext code
    exact .short (by decide)
  split
  · rename_i code
    obtain rfl : c = '\r' := Char.ext code
    exact .short (by decide)
  split
  · rename_i control
    have below : c.val.toNat < 32 := UInt32.lt_iff_toNat_lt.1 control
    have spelled := SpellsChar.unit (hexQuad_hexPair below) (.inl (by omega))
    rwa [show Char.ofNat c.val.toNat = c from Char.ofNat_toNat c] at spelled
  · rename_i notQuote notBackslash _ _ _ _ _ printable
    exact .plain notQuote notBackslash printable

/-- The way in which characters are written is one of the ways to write them. -/
theorem spellsChars_escape (s : List Char) : SpellsChars s (s.flatMap escapeChar) := by
  induction s with
  | nil => exact .nil
  | cons c rest ih => exact .cons (spellsChar_escapeChar c) ih

/-- A string is written as one of its spellings. -/
theorem spellsString_stringChars (s : String) : SpellsString s (stringChars s) :=
  ⟨_, spellsChars_escape s.toList, rfl⟩

/-- A word is written as one of its spellings. -/
theorem spells_natural (depth : Nat) (w : UInt64) :
    Spells depth (.value (.number (.natural w))) (chars (.number (.natural w))) := by
  have range : w.toNat ≤ Text.wordBound := by
    have := UInt64.toNat_lt w
    unfold Text.wordBound
    omega
  have written : chars (.number (.natural w)) = minusSign false ++ Text.decimal w.toNat := by
    rw [chars, numberText, Nat.toString_eq_ofList_toDigits, String.toList_ofList]
    rfl
  have number : integer false w.toNat = .natural w := by simp [integer]
  have spelled : Spells depth _ _ := Spells.whole false range
  rwa [number, ← written] at spelled

/-- Fields whose values are written as one of their spellings are so, too. -/
theorem spells_fields {depth : Nat} (first : String × Json) (rest : Fields)
    (values : ∀ field ∈ first :: rest, Spells depth (.value field.2) (chars field.2)) :
    Spells depth (.fields (first :: rest))
      (stringChars first.1 ++ ':' :: (chars first.2 ++ moreFields rest)) := by
  induction rest generalizing first with
  | nil =>
    exact .lastField isGap_nil (spellsString_stringChars first.1) isGap_nil isGap_nil
      (values first (by simp)) isGap_nil
  | cons next rest ih =>
    have others := ih next fun field member => values field (List.mem_cons_of_mem first member)
    exact .nextField isGap_nil (spellsString_stringChars first.1) isGap_nil isGap_nil
      (values first (by simp)) isGap_nil others

end Json

end AccessLatency
