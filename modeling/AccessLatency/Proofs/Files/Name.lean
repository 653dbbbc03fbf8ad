import AccessLatency.Proofs.Files.Place
import Mathlib.Tactic

/-!
# Names and extensions of paths

A path that ends in a name is three texts in a row: the folder with the separator behind it, if there
is one, then the name, and then separators and single dots that do not count. `EndsIn` takes a path
apart like this, and the name, the stem and the folder of a path depend on the first two texts only.

Replacing the extension starts with a cut at the end of the whole path, by as many characters as the
old extension has. Some of these may be separators and dots that do not count, and then a part of the
old extension is left. Either way the stem in front is untouched, and what is left of the name is cut
off behind it: `EndsIn.withExtension_eq`. The one exception is a name of two dots and an extension at
the very end of a path. The cut leaves the two dots, which are no name any more: `LosesName`.
-/

set_option autoImplicit false

namespace AccessLatency

namespace Path

variable {p q front name other behind rest stem extension : List Char}

/-! ## What does not count at the end of a path -/

/-- Separators and single dots behind separators, back to front. -/
inductive IsIdle : List Char → Prop
  | nil : IsIdle []
  | separator {rest : List Char} (idle : IsIdle rest) : IsIdle ('/' :: rest)
  | here {rest : List Char} (idle : IsIdle rest) : IsIdle ('.' :: '/' :: rest)

/-- What does not count is left out in front of any text. -/
theorem IsIdle.dropIdle_append (h : IsIdle behind) (s : List Char) :
    dropIdle (behind ++ s) = dropIdle s := by
  induction h with
  | nil => rfl
  | separator idle ih => rwa [List.cons_append, dropIdle]
  | here idle ih => rwa [List.cons_append, List.cons_append, dropIdle]

/-- What is left of a text that does not count does not count either. -/
theorem IsIdle.drop (h : IsIdle behind) (k : Nat) : IsIdle (behind.drop k) := by
  induction h generalizing k with
  | nil => rw [List.drop_nil]; exact .nil
  | @separator rest idle ih =>
    cases k with
    | zero => exact .separator idle
    | succ k => exact ih k
  | @here rest idle ih =>
    match k with
    | 0 => exact .here idle
    | 1 => exact .separator idle
    | k + 2 => exact ih k

/-- What is left out at the end of a path does not count. -/
theorem exists_isIdle (reversed : List Char) :
    ∃ idle, IsIdle idle ∧ reversed = idle ++ dropIdle reversed := by
  induction reversed using dropIdle.induct with
  | case1 rest ih =>
    obtain ⟨idle, isIdle, split⟩ := ih
    refine ⟨'/' :: idle, .separator isIdle, ?_⟩
    rw [dropIdle, List.cons_append, ← split]
  | case2 rest ih =>
    obtain ⟨idle, isIdle, split⟩ := ih
    refine ⟨'.' :: '/' :: idle, .here isIdle, ?_⟩
    rw [dropIdle, List.cons_append, List.cons_append, ← split]
  | case3 s notSeparator notHere =>
    refine ⟨[], .nil, ?_⟩
    rw [dropIdle, List.nil_append] <;> assumption

/-! ## Paths that end in a name -/

/-- A path that ends in a name, taken apart into the folder with the separator behind it, the name,
and what does not count. -/
structure EndsIn (p front name behind : List Char) : Prop where
  parts : p = front ++ name ++ behind
  folder : front = [] ∨ ∃ outer, front = outer ++ ['/']
  inner : '/' ∉ name
  filled : name ≠ []
  notHere : name ≠ here
  notAbove : name ≠ above
  idle : IsIdle behind.reverse

/-- Nothing is left out of a path behind a name, be it the name of the folder above. -/
theorem dropIdle_reverse_append (inner : '/' ∉ name) (filled : name ≠ []) (notHere : name ≠ here) :
    dropIdle (front ++ name).reverse = (front ++ name).reverse := by
  rw [List.reverse_append]
  have inner' : '/' ∉ name.reverse := mt List.mem_reverse.1 inner
  have notHere' : name.reverse ≠ here := fun same => notHere (List.reverse_eq_iff.1 same)
  match same : name.reverse with
  | [] => exact absurd (List.reverse_eq_nil_iff.1 same) filled
  | [c] =>
    rw [same] at inner' notHere'
    have notSeparator : c ≠ '/' := fun e => inner' (by simp [e])
    have notDot : c ≠ '.' := fun e => notHere' (by rw [e]; rfl)
    rw [dropIdle] <;> simp [notSeparator, notDot]
  | c :: d :: more =>
    rw [same] at inner'
    have notSeparator : c ≠ '/' := fun e => inner' (by simp [e])
    have notBehind : d ≠ '/' := fun e => inner' (by simp [e])
    rw [dropIdle] <;> simp [notSeparator, notBehind]

/-- A name holds no separator, back to front or not. -/
theorem isInner_of_mem (inner : '/' ∉ name) : ∀ c ∈ name.reverse, isInner c = true := by
  intro c member
  have other : c ≠ '/' := fun same => inner (same ▸ List.mem_reverse.1 member)
  simpa [isInner] using other

/-- The name at the end of a path is what stands behind the last separator. -/
theorem cut_reverse_append (folder : front = [] ∨ ∃ outer, front = outer ++ ['/'])
    (inner : '/' ∉ name) :
    (front ++ name).reverse.takeWhile isInner = name.reverse ∧
      (front ++ name).reverse.dropWhile isInner = front.reverse := by
  have all := isInner_of_mem inner
  rw [List.reverse_append, List.takeWhile_append_of_pos all, List.dropWhile_append_of_pos all]
  rcases folder with rfl | ⟨outer, rfl⟩
  · simp
  · simp [isInner]

namespace EndsIn

/-- What is left of a path is its folder and its name. -/
theorem dropIdle_eq (h : EndsIn p front name behind) :
    dropIdle p.reverse = (front ++ name).reverse := by
  rw [h.parts, List.reverse_append, h.idle.dropIdle_append,
    dropIdle_reverse_append h.inner h.filled h.notHere]

/-- The name that a path ends in is its name. -/
theorem fileName?_eq (h : EndsIn p front name behind) : fileName? p = some name := by
  have last : lastComponent p.reverse = name := by
    unfold lastComponent
    rw [h.dropIdle_eq, (cut_reverse_append h.folder h.inner).1, List.reverse_reverse]
  unfold fileName?
  dsimp only
  rw [last, if_neg (by simp [h.filled, h.notHere, h.notAbove])]

/-- Up to its stem a path is its folder and the stem of its name. -/
theorem throughStem?_eq (h : EndsIn p front name behind) :
    throughStem? p = some (front ++ (splitName name).1) := by
  unfold throughStem?
  rw [h.fileName?_eq, Option.map_some, h.dropIdle_eq, List.reverse_reverse]
  dsimp only
  rw [List.length_append, Nat.add_sub_cancel, List.take_left]

/-- Paths with the same folder in front of their names have the same parent. -/
theorem parent_eq (h : EndsIn p front name behind) {behind' : List Char}
    (h' : EndsIn q front other behind') : parent p = parent q := by
  unfold parent
  rw [h.dropIdle_eq, h'.dropIdle_eq, (cut_reverse_append h.folder h.inner).2,
    (cut_reverse_append h'.folder h'.inner).2]

end EndsIn

/-- A path has a name exactly if it can be taken apart like this. -/
theorem exists_endsIn (h : fileName? p = some name) :
    ∃ front behind, EndsIn p front name behind := by
  obtain ⟨last, filled, notHere, notAbove⟩ := eq_of_fileName? h
  obtain ⟨idle, isIdle, split⟩ := exists_isIdle p.reverse
  have inner : '/' ∉ name := last ▸ not_mem_lastComponent p.reverse
  have whole : p = (dropIdle p.reverse).reverse ++ idle.reverse := by
    rw [← List.reverse_append, ← split, List.reverse_reverse]
  refine ⟨((dropIdle p.reverse).dropWhile isInner).reverse, idle.reverse, ?_, ?_, inner, filled,
    notHere, notAbove, by rwa [List.reverse_reverse]⟩
  · rwa [last, ← reverse_dropIdle]
  · cases outer : (dropIdle p.reverse).dropWhile isInner with
    | nil => exact .inl rfl
    | cons c rest =>
      obtain rfl := eq_separator_of_dropWhile outer
      exact .inr ⟨rest.reverse, List.reverse_cons⟩

/-! ## Stems and extensions -/

/-- The last dot of a name divides it, unless the name starts with it. -/
theorem splitName_append (filled : stem ≠ []) (plain : '.' ∉ extension) :
    splitName (stem ++ '.' :: extension) = (stem, some extension) := by
  have all : ∀ c ∈ extension.reverse, isPlain c = true := by
    intro c member
    have other : c ≠ '.' := fun same => plain (same ▸ List.mem_reverse.1 member)
    simpa [isPlain] using other
  have reversed : (stem ++ '.' :: extension).reverse = extension.reverse ++ '.' :: stem.reverse := by
    rw [List.reverse_append, List.reverse_cons, List.append_assoc, List.singleton_append]
  have dot : isPlain '.' = false := rfl
  unfold splitName
  rw [reversed, List.dropWhile_append_of_pos all, List.takeWhile_append_of_pos all,
    List.dropWhile_cons_of_neg (by simp [dot]), List.takeWhile_cons_of_neg (by simp [dot]),
    List.append_nil]
  obtain ⟨c, rest, same⟩ := List.exists_cons_of_ne_nil (mt List.reverse_eq_nil_iff.1 filled)
  rw [same]
  dsimp only
  rw [← same, List.reverse_reverse, List.reverse_reverse]

/-- A name either has no extension, and is its own stem, or is divided by its last dot. -/
theorem splitName_cases (name : List Char) :
    splitName name = (name, none) ∨
      ∃ stem extension, name = stem ++ '.' :: extension ∧ stem ≠ [] ∧ '.' ∉ extension ∧
        splitName name = (stem, some extension) := by
  cases split : splitName name with
  | mk stem found =>
    cases found with
    | none =>
      left
      unfold splitName at split
      split at split
      · cases split
      · rw [← split]
    | some extension =>
      right
      have whole := eq_of_splitName split
      unfold splitName at split
      split at split
      · cases split
        refine ⟨_, _, whole, by simp, ?_, rfl⟩
        intro member
        have plain := List.mem_takeWhile_imp (List.mem_reverse.1 member)
        cases plain
      · cases split

/-! ## Replacing an extension -/

/-- The extension of a path is that of its name. -/
theorem extension?_eq (h : EndsIn p front name behind) : extension? p = (splitName name).2 := by
  unfold extension?
  rw [h.fileName?_eq, Option.bind_some]

/-- The stem of a path is that of its name. -/
theorem stem?_eq (h : EndsIn p front name behind) : stem? p = some (splitName name).1 := by
  unfold stem?
  rw [h.fileName?_eq, Option.map_some]

/-- A path that ends in two dots and an extension without any, with nothing behind. -/
def LosesName (p : List Char) : Prop :=
  ∃ front extension, p = front ++ '.' :: '.' :: extension ∧
    (front = [] ∨ ∃ outer, front = outer ++ ['/']) ∧
    extension ≠ [] ∧ '.' ∉ extension ∧ '/' ∉ extension

/-- A path without a name is given no extension. -/
theorem withExtension_of_no_name (h : fileName? p = none) (new : List Char) :
    withExtension new p = p := by
  have unnamed : extension? p = none := by
    unfold extension?
    rw [h, Option.bind_none]
  unfold withExtension throughStem?
  rw [unnamed]
  dsimp only
  rw [h]
  rfl

/-- The end of a path is cut off by as many characters as its extension has: a part of the extension
is left if there is something behind the name. -/
theorem EndsIn.cut_eq (h : EndsIn p front (stem ++ '.' :: extension) behind) :
    p.take (p.length - extension.length) =
      front ++ (stem ++ '.' :: extension.take behind.length) ++
        behind.take (behind.length - extension.length) := by
  have count : p.length - extension.length = (front ++ stem ++ ['.']).length + behind.length := by
    rw [h.parts]
    simp only [List.length_append, List.length_cons, List.length_nil]
    omega
  have parts : p = front ++ stem ++ ['.'] ++ (extension ++ behind) := by
    rw [h.parts]
    simp
  rw [count, parts, List.take_length_add_append, List.take_append]
  simp

/-- What is left after the cut ends in a name, unless nothing is left but two dots. -/
theorem EndsIn.cut (h : EndsIn p front (stem ++ '.' :: extension) behind) (filled : stem ≠ [])
    (kept : stem = here → behind ≠ []) :
    EndsIn (p.take (p.length - extension.length)) front
      (stem ++ '.' :: extension.take behind.length)
      (behind.take (behind.length - extension.length)) where
  parts := h.cut_eq
  folder := h.folder
  inner := by
    intro member
    apply h.inner
    simp only [List.mem_append, List.mem_cons] at member ⊢
    exact member.imp_right fun rest => rest.imp_right List.mem_of_mem_take
  filled := by simp
  notHere := by
    intro same
    have lengths := congrArg List.length same
    have long := List.length_pos_of_ne_nil filled
    simp only [here, List.length_append, List.length_cons, List.length_nil] at lengths
    omega
  notAbove := by
    intro same
    have lengths := congrArg List.length same
    have long := List.length_pos_of_ne_nil filled
    simp only [above, List.length_append, List.length_cons, List.length_nil] at lengths
    have short : stem.length = here.length := by
      simp only [here, List.length_cons, List.length_nil]
      omega
    have twice : above = here ++ ['.'] := rfl
    obtain ⟨dot, rest⟩ := List.append_inj (same.trans twice) short
    rcases List.take_eq_nil_iff.1 (List.cons_eq_cons.1 rest).2 with nothing | bare
    · exact kept dot (List.length_eq_zero_iff.1 nothing)
    · exact h.notAbove (by rw [dot, bare, twice])
  idle := by
    rw [List.reverse_take]
    exact h.idle.drop _

/-- A path that loses its name ends in it. -/
theorem LosesName.exists_endsIn (h : LosesName p) :
    ∃ front extension, EndsIn p front (here ++ '.' :: extension) [] ∧ '.' ∉ extension := by
  obtain ⟨front, extension, parts, folder, filled, plain, inner⟩ := h
  refine ⟨front, extension, ⟨?_, folder, ?_, by simp, by simp [here], ?_, .nil⟩, plain⟩
  · rw [parts, List.append_nil]
    rfl
  · simpa [here] using inner
  · simpa [here, above] using filled

/-- The folder above is no name, wherever it is. -/
theorem fileName?_above (folder : front = [] ∨ ∃ outer, front = outer ++ ['/']) :
    fileName? (front ++ above) = none := by
  have inner : '/' ∉ above := by decide
  have last : lastComponent (front ++ above).reverse = above := by
    unfold lastComponent
    rw [dropIdle_reverse_append inner (by decide) (by decide), (cut_reverse_append folder inner).1,
      List.reverse_reverse]
  unfold fileName?
  dsimp only
  rw [last, if_pos (by simp)]

/-- Nothing but the two dots is left of a path that loses its name. -/
theorem LosesName.fileName?_withExtension (h : LosesName p) (new : List Char) :
    fileName? (withExtension new p) = none := by
  obtain ⟨front, extension, ends, plain⟩ := h.exists_endsIn
  have left : p.take (p.length - extension.length) = front ++ above := by
    rw [ends.cut_eq]
    simp [here, above]
  have unnamed : fileName? (front ++ above) = none := fileName?_above ends.folder
  unfold withExtension
  rw [extension?_eq ends, splitName_append (by decide) plain]
  dsimp only
  rw [left]
  unfold throughStem?
  rw [unnamed]
  exact unnamed

/-- A stem is the beginning of its name, and not empty. -/
theorem splitName_stem (filled : name ≠ []) :
    (splitName name).1 ≠ [] ∧ (splitName name).1 <+: name := by
  rcases splitName_cases name with whole | ⟨stem, extension, rfl, kept, -, split⟩
  · rw [whole]
    exact ⟨filled, List.prefix_rfl⟩
  · rw [split]
    exact ⟨kept, List.prefix_append _ _⟩

/-- The new extension stands behind the stem of the name, and nothing behind it. -/
theorem EndsIn.withExtension_eq (h : EndsIn p front name behind) (keeps : ¬ LosesName p)
    (new : List Char) :
    withExtension new p = front ++ ((splitName name).1 ++ '.' :: new) := by
  unfold withExtension
  rw [extension?_eq h]
  rcases splitName_cases name with whole | ⟨stem, extension, rfl, filled, plain, split⟩
  · rw [whole]
    dsimp only
    rw [h.throughStem?_eq, whole]
    simp
  · have kept : stem = here → behind ≠ [] := by
      rintro rfl rfl
      apply keeps
      refine ⟨front, extension, by simpa [here] using h.parts, h.folder, ?_, plain, ?_⟩
      · rintro rfl
        exact h.notAbove rfl
      · exact fun member => h.inner (by simp [member])
    have plain' : '.' ∉ extension.take behind.length := mt List.mem_of_mem_take plain
    rw [split]
    dsimp only
    rw [(h.cut filled kept).throughStem?_eq, splitName_append filled plain']
    simp

/-- A path with a new extension has the parent and the stem that it had. -/
theorem withExtension_keeps (named : fileName? p = some name) (keeps : ¬ LosesName p)
    (new : List Char) (filled : new ≠ []) (inner : '/' ∉ new) (plain : '.' ∉ new) :
    parent (withExtension new p) = parent p ∧ stem? (withExtension new p) = stem? p ∧
      extension? (withExtension new p) = some new := by
  obtain ⟨front, behind, h⟩ := exists_endsIn named
  obtain ⟨stemFilled, leads⟩ := splitName_stem h.filled
  have long := List.length_pos_of_ne_nil stemFilled
  have wide := List.length_pos_of_ne_nil filled
  have renamed : EndsIn (withExtension new p) front ((splitName name).1 ++ '.' :: new) [] := by
    refine ⟨?_, h.folder, ?_, by simp, ?_, ?_, .nil⟩
    · rw [h.withExtension_eq keeps new, List.append_nil]
    · intro member
      rcases List.mem_append.1 member with old | added
      · exact h.inner (leads.subset old)
      · exact inner (by simpa using added)
    · intro same
      have lengths := congrArg List.length same
      simp only [here, List.length_append, List.length_cons, List.length_nil] at lengths
      omega
    · intro same
      have lengths := congrArg List.length same
      simp only [above, List.length_append, List.length_cons, List.length_nil] at lengths
      omega
  have split := splitName_append stemFilled plain
  exact ⟨renamed.parent_eq h, by rw [stem?_eq renamed, stem?_eq h, split],
    by rw [extension?_eq renamed, split]⟩

end Path

end AccessLatency
