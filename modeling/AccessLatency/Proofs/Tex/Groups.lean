import AccessLatency.Chart.TexFigure
import AccessLatency.Proofs.Text.Split
import Mathlib.Tactic

/-!
# Groups in TeX

Braces enclose groups, unless a backslash stands in front of them. A reader keeps its `Place`: how
many groups are open, and whether the next character is escaped. What it looks for, be it the end of
a group or a separator, counts only where no group is open, so that a group may hold anything.

A text is `Balanced` if it closes the groups it opens and no others. Such a text can stand in a
group, `readUntil?_append`, and in a list, `splitOpen_joined`, and is found there unchanged.
-/

set_option autoImplicit false

namespace AccessLatency

namespace Tex

/-- Where a reader is: the number of open groups, and whether the next character is escaped. -/
structure Place where
  depth : Int
  escaped : Bool
  deriving DecidableEq

namespace Place

/-- Outside all groups. -/
def outside : Place := ⟨0, false⟩

/-- The place behind a character. -/
def next (p : Place) (c : Char) : Place :=
  if p.escaped then { p with escaped := false }
  else if c = '\\' then { p with escaped := true }
  else if c = '\x7b' then { p with depth := p.depth + 1 }
  else if c = '\x7d' then { p with depth := p.depth - 1 }
  else p

/-- The place behind a text. -/
def after (p : Place) (s : List Char) : Place := s.foldl next p

/-- The same place inside more groups. -/
def inside (p : Place) (groups : Int) : Place := { p with depth := p.depth + groups }

variable (p : Place)

/-- An empty text does not change the place. -/
@[simp] theorem after_nil : p.after [] = p := rfl

/-- The place behind a text is found character by character. -/
@[simp] theorem after_cons (c : Char) (s : List Char) : p.after (c :: s) = (p.next c).after s := rfl

/-- The place behind two texts is that behind the second, read from behind the first. -/
@[simp] theorem after_append (s t : List Char) : p.after (s ++ t) = (p.after s).after t :=
  List.foldl_append

/-- A character moves the place in the same way inside more groups. -/
theorem next_inside (groups : Int) (c : Char) :
    (p.inside groups).next c = (p.next c).inside groups := by
  unfold next inside
  split_ifs <;> simp <;> omega

/-- A text moves the place in the same way inside more groups. -/
theorem after_inside (groups : Int) (s : List Char) :
    (p.inside groups).after s = (p.after s).inside groups := by
  induction s generalizing p with
  | nil => rfl
  | cons c s ih => rw [after_cons, after_cons, next_inside, ih]

end Place

/-- The number of groups that a text leaves open. -/
def depth (s : List Char) : Int := (Place.outside.after s).depth

/-! ## Balanced texts -/

/-- A text that closes all groups it opens and no others, and does not end in a backslash. -/
structure Balanced (s : List Char) : Prop where
  nonneg : ∀ n, 0 ≤ depth (s.take n)
  closed : Place.outside.after s = Place.outside

/-- A text is balanced if the beginnings shorter than itself close no group too many, and the whole
closes what it opens. -/
theorem balanced_iff {s : List Char} :
    Balanced s ↔
      (∀ n < s.length, 0 ≤ depth (s.take n)) ∧ Place.outside.after s = Place.outside := by
  constructor
  · intro h
    exact ⟨fun n _ => h.nonneg n, h.closed⟩
  · rintro ⟨nonneg, closed⟩
    refine ⟨?_, closed⟩
    intro n
    by_cases short : n < s.length
    · exact nonneg n short
    · rw [List.take_of_length_le (not_lt.1 short), depth, closed]
      decide

instance (s : List Char) : Decidable (Balanced s) := decidable_of_iff _ balanced_iff.symm

/-- The empty text is balanced. -/
theorem balanced_nil : Balanced [] := by decide

/-- Balanced texts are balanced when put together. -/
theorem Balanced.append {s t : List Char} (hs : Balanced s) (ht : Balanced t) :
    Balanced (s ++ t) := by
  constructor
  · intro n
    rw [List.take_append]
    by_cases short : n ≤ s.length
    · simpa [Nat.sub_eq_zero_of_le short] using hs.nonneg n
    · have := ht.nonneg (n - s.length)
      unfold depth at this ⊢
      rwa [List.take_of_length_le (by omega), Place.after_append, hs.closed]
  · rw [Place.after_append, hs.closed, ht.closed]

/-- A text made of balanced parts is balanced. -/
theorem balanced_flatMap {α : Type} {l : List α} {f : α → List Char}
    (h : ∀ a ∈ l, Balanced (f a)) : Balanced (l.flatMap f) := by
  induction l with
  | nil => exact balanced_nil
  | cons a l ih =>
    rw [List.flatMap_cons]
    exact (h a (by simp)).append (ih fun b hb => h b (List.mem_cons_of_mem a hb))

/-- A character that is neither a brace nor a backslash. -/
def IsPlain (c : Char) : Prop := c ≠ '\\' ∧ c ≠ '\x7b' ∧ c ≠ '\x7d'

instance (c : Char) : Decidable (IsPlain c) := inferInstanceAs (Decidable (_ ∧ _))

/-- A plain character leaves the place outside. -/
theorem next_of_isPlain {c : Char} (h : IsPlain c) : Place.outside.next c = Place.outside := by
  obtain ⟨noEscape, noOpening, noClosing⟩ := h
  simp [Place.next, Place.outside, noEscape, noOpening, noClosing]

/-- A plain character is balanced. -/
theorem balanced_singleton {c : Char} (h : IsPlain c) : Balanced [c] := by
  rw [balanced_iff]
  refine ⟨?_, next_of_isPlain h⟩
  intro n short
  obtain rfl : n = 0 := by simpa using short
  rw [List.take_zero]
  decide

/-- A text of plain characters is balanced. -/
theorem balanced_of_isPlain {s : List Char} (h : ∀ c ∈ s, IsPlain c) : Balanced s := by
  have single : s.flatMap (fun c => [c]) = s := by simp
  rw [← single]
  exact balanced_flatMap fun c hc => balanced_singleton (h c hc)

/-- A group of a balanced text is balanced. -/
theorem Balanced.group {s : List Char} (h : Balanced s) : Balanced (group s) := by
  have opened : Place.outside.next '\x7b' = Place.outside.inside 1 := rfl
  have closed : Place.outside.after (Tex.group s) = Place.outside := by
    unfold Tex.group
    rw [Place.after_cons, opened, Place.after_inside, Place.after_append, h.closed]
    rfl
  rw [balanced_iff]
  refine ⟨?_, closed⟩
  intro n short
  unfold Tex.group at short ⊢
  cases n with
  | zero =>
    rw [List.take_zero]
    decide
  | succ n =>
    simp only [List.length_cons, List.length_append, List.length_nil] at short
    have inner : (s ++ ['\x7d']).take n = s.take n := List.take_append_of_le_length (by omega)
    have nonneg := h.nonneg n
    unfold depth at nonneg ⊢
    rw [List.take_succ_cons, Place.after_cons, opened, inner, Place.after_inside]
    simp only [Place.inside]
    omega

/-! ## Reading outside of groups -/

/-- The characters of a text, each with whether it stands outside all groups and is not escaped. -/
def marked (p : Place) : List Char → List (Char × Bool)
  | [] => []
  | c :: rest => (c, decide (p = .outside)) :: marked (p.next c) rest

/-- The text in front of the first character outside of groups that is the given one, and the text
behind it. -/
def readUntil? (stop : Char) (s : List Char) : Option (List Char × List Char) :=
  match (marked .outside s).span (· ≠ (stop, true)) with
  | (_, []) => none
  | (front, _ :: rest) => some (front.map Prod.fst, rest.map Prod.fst)

/-- The pieces of a text between the separators outside of groups. -/
def splitOpen (separator : Char) (s : List Char) : List (List Char) :=
  (Text.split (separator, true) (marked .outside s)).map (List.map Prod.fst)

/-- The text of a group that is nothing but a group. -/
def readGroup? : List Char → Option (List Char)
  | '\x7b' :: rest =>
    match readUntil? '\x7d' rest with
    | some (body, []) => some body
    | _ => none
  | _ => none

/-- A balanced text without a character outside of its groups. -/
structure Hides (c : Char) (s : List Char) : Prop where
  balanced : Balanced s
  hidden : (c, true) ∉ marked .outside s

instance (c : Char) (s : List Char) : Decidable (Hides c s) :=
  decidable_of_iff (Balanced s ∧ (c, true) ∉ marked .outside s)
    ⟨fun h => ⟨h.1, h.2⟩, fun h => ⟨h.1, h.2⟩⟩

/-- Two texts are marked one behind the other. -/
theorem marked_append (p : Place) (s t : List Char) :
    marked p (s ++ t) = marked p s ++ marked (p.after s) t := by
  induction s generalizing p with
  | nil => rfl
  | cons c s ih => simp [marked, ih]

/-- The marked characters are those of the text. -/
theorem map_fst_marked (p : Place) (s : List Char) : (marked p s).map Prod.fst = s := by
  induction s generalizing p with
  | nil => rfl
  | cons c s ih => simp [marked, ih]

/-- What is marked stands behind a part of the text that leads outside. -/
theorem exists_take_of_mem_marked {p : Place} {s : List Char} {c : Char}
    (h : (c, true) ∈ marked p s) :
    ∃ n, p.after (s.take n) = .outside ∧ s.take (n + 1) = s.take n ++ [c] := by
  induction s generalizing p with
  | nil => simp [marked] at h
  | cons d s ih =>
    rcases List.mem_cons.1 h with first | later
    · obtain ⟨rfl, there⟩ := Prod.mk.inj first
      exact ⟨0, of_decide_eq_true there.symm, by simp⟩
    · obtain ⟨n, outside, next⟩ := ih later
      refine ⟨n + 1, ?_, ?_⟩
      · simpa using outside
      · rw [List.take_succ_cons, List.take_succ_cons, next, List.cons_append]

section Hides

variable {c : Char} {s t : List Char}

/-- Two texts without the character outside of groups have none when put together. -/
theorem Hides.append (hs : Hides c s) (ht : Hides c t) : Hides c (s ++ t) := by
  refine ⟨hs.balanced.append ht.balanced, ?_⟩
  rw [marked_append, hs.balanced.closed, List.mem_append]
  rintro (h | h)
  · exact hs.hidden h
  · exact ht.hidden h

/-- A text made of parts without the character outside of groups has none. -/
theorem hides_flatMap {α : Type} {l : List α} {f : α → List Char} (h : ∀ a ∈ l, Hides c (f a)) :
    Hides c (l.flatMap f) := by
  induction l with
  | nil => exact ⟨balanced_nil, by simp [marked]⟩
  | cons a l ih =>
    rw [List.flatMap_cons]
    exact (h a (by simp)).append (ih fun b hb => h b (List.mem_cons_of_mem a hb))

/-- A balanced text without the character has none outside of groups. -/
theorem hides_of_not_mem (balanced : Balanced s) (h : c ∉ s) : Hides c s := by
  refine ⟨balanced, ?_⟩
  intro member
  have := List.mem_map_of_mem (f := Prod.fst) member
  rw [map_fst_marked] at this
  exact h this

/-- A text of plain characters other than this one has none outside of groups. -/
theorem hides_of_isPlain (plain : ∀ d ∈ s, IsPlain d) (h : c ∉ s) : Hides c s :=
  hides_of_not_mem (balanced_of_isPlain plain) h

/-- A balanced text does not end the group that it stands in. -/
theorem Balanced.hides_closing (h : Balanced s) : Hides '\x7d' s := by
  refine ⟨h, ?_⟩
  intro member
  obtain ⟨n, outside, next⟩ := exists_take_of_mem_marked member
  have := h.nonneg (n + 1)
  rw [next, depth, Place.after_append, outside] at this
  exact absurd this (by decide)

/-- A group has no character outside of groups, except for its opening brace. -/
theorem Balanced.hides_group (h : Balanced s) (opening : c ≠ '\x7b') : Hides c (Tex.group s) := by
  refine ⟨h.group, ?_⟩
  have opened : Place.outside.next '\x7b' = Place.outside.inside 1 := rfl
  have behind : (Place.outside.inside 1).after s = Place.outside.inside 1 := by
    rw [Place.after_inside, h.closed]
  unfold Tex.group
  rw [marked, opened, marked_append, behind, List.mem_cons, List.mem_append]
  rintro (first | inner | last)
  · exact opening (congrArg Prod.fst first)
  · obtain ⟨n, outside, -⟩ := exists_take_of_mem_marked inner
    rw [Place.after_inside] at outside
    have := congrArg Place.depth outside
    have := h.nonneg n
    simp only [depth, Place.inside, Place.outside] at *
    omega
  · simp [marked, Place.inside, Place.outside] at last

end Hides

/-- The text in front of the first character outside of groups is read up to it. -/
theorem readUntil?_append {stop : Char} {s : List Char} (h : Hides stop s) (rest : List Char) :
    readUntil? stop (s ++ stop :: rest) = some (s, rest) := by
  have front : ∀ a ∈ marked .outside s, decide (a ≠ (stop, true)) = true := by
    intro a member
    apply decide_eq_true
    rintro rfl
    exact h.hidden member
  unfold readUntil?
  rw [marked_append, h.balanced.closed, marked, List.span_eq_takeWhile_dropWhile,
    List.takeWhile_append_of_pos front, List.dropWhile_append_of_pos front]
  simp [map_fst_marked]

/-- A group of a balanced text is read as the text. -/
theorem readGroup?_group {s : List Char} (h : Balanced s) : readGroup? (group s) = some s := by
  have read : readUntil? '\x7d' (s ++ ['\x7d']) = some (s, []) :=
    readUntil?_append h.hides_closing []
  simp [readGroup?, Tex.group, read]

section Split

variable {separator : Char} {s : List Char}

/-- A text without the separator outside of groups is a single piece. -/
theorem splitOpen_of_hides (h : Hides separator s) : splitOpen separator s = [s] := by
  unfold splitOpen
  rw [Text.split_of_not_mem h.hidden, List.map_singleton, map_fst_marked]

/-- A text without the separator outside of groups is the first piece in front of one. -/
theorem splitOpen_append (h : Hides separator s) (plain : IsPlain separator) (rest : List Char) :
    splitOpen separator (s ++ separator :: rest) = s :: splitOpen separator rest := by
  unfold splitOpen
  rw [marked_append, h.balanced.closed, marked, next_of_isPlain plain]
  simp only [decide_true]
  rw [Text.split_append h.hidden, List.map_cons, map_fst_marked]

/-- Pieces joined by a separator that none of them holds outside of groups. -/
theorem splitOpen_joined (plain : IsPlain separator) {pieces : List (List Char)}
    (first : Hides separator s) (others : ∀ piece ∈ pieces, Hides separator piece) :
    splitOpen separator (s ++ pieces.flatMap fun piece => separator :: piece) = s :: pieces := by
  induction pieces generalizing s with
  | nil => simpa using splitOpen_of_hides first
  | cons piece pieces ih =>
    rw [List.flatMap_cons, List.cons_append, splitOpen_append first plain,
      ih (others piece (by simp)) fun p hp => others p (List.mem_cons_of_mem piece hp)]

/-- Pieces that each end in a separator, with a last one behind them. -/
theorem splitOpen_flatMap_append (plain : IsPlain separator) {pieces : List (List Char)}
    (h : ∀ piece ∈ pieces, Hides separator piece) {last : List Char} (hl : Hides separator last) :
    splitOpen separator ((pieces.flatMap fun piece => piece ++ [separator]) ++ last) =
      pieces ++ [last] := by
  induction pieces with
  | nil => exact splitOpen_of_hides hl
  | cons piece pieces ih =>
    rw [List.forall_mem_cons] at h
    rw [List.flatMap_cons, List.append_assoc, List.append_assoc, List.singleton_append,
      splitOpen_append h.1 plain, ih h.2, List.cons_append]

end Split

end Tex

end AccessLatency
