import AccessLatency.Proofs.LatencyTable.Dialect
import Mathlib.Logic.Relation
import Mathlib.Tactic

/-!
# Layout of a text

The same table can be laid out in many ways: with blank lines and with blank characters around its
fields, with one end of line or the other, with or without an end of the last line, and with further
columns that are not read. `LayoutChange` is one such change, made at any place of a text, and a
text stays a text of the same table under any number of them, `read_of_layoutChanges`.

The reader sees a text only through its `dataFields`, the fields of its lines of data. No change of
layout does anything to these except that each line may get the same number of further fields.
-/

set_option autoImplicit false

namespace AccessLatency

namespace LatencyTable

/-! ## Changes -/

/-- A field, and the same field with blank characters around it, in addition to those that are
there. -/
def GetsBlanks (field wide : List Char) : Prop :=
  ∃ front middle back before behind : List Char, field = front ++ (middle ++ back) ∧
    wide = (front ++ before) ++ (middle ++ (behind ++ back)) ∧
    (∀ c ∈ front ++ back, Text.isBlank c = true) ∧
    ∀ c ∈ before ++ behind, Text.isBlank c = true ∧ c ≠ '\n'

/-- A line, and the same line with further columns behind its last field. Blank characters at the
end of the line, a carriage return among them, may stay at the end. -/
def GetsColumns (count : ℕ) (line wide : List Char) : Prop :=
  ∃ (front ending : List Char) (columns : List (List Char)), line = front ++ ending ∧
    wide = front ++ (columns.flatMap (fun column => ',' :: column) ++ ending) ∧
    (∀ c ∈ ending, Text.isBlank c = true) ∧
    columns.length = count ∧ ∀ column ∈ columns, ',' ∉ column ∧ '\n' ∉ column

/-- Lines, and the same lines with further columns behind each one that holds data. Blank lines and
a header have none. The flag says that only blank lines stand above, so that the next line may be a
header. -/
inductive Widened (count : ℕ) : Bool → List (List Char) → List (List Char) → Prop
  | nil {leading : Bool} : Widened count leading [] []
  | blank {leading : Bool} {line : List Char} {lines wide : List (List Char)}
      (blank : line.all Text.isBlank = true) (below : Widened count leading lines wide) :
      Widened count leading (line :: lines) (line :: wide)
  | header {line : List Char} {lines wide : List (List Char)}
      (filled : line.all Text.isBlank = false) (words : startsWithNumber line = false)
      (below : Widened count false lines wide) : Widened count true (line :: lines) (line :: wide)
  | data {leading : Bool} {line longer : List Char} {lines wide : List (List Char)}
      (filled : line.all Text.isBlank = false)
      (number : leading = true → startsWithNumber line = true)
      (columns : GetsColumns count line longer) (below : Widened count false lines wide) :
      Widened count leading (line :: lines) (longer :: wide)

/-- A change of a text that leaves its table as it is. -/
inductive LayoutChange : List Char → List Char → Prop
  /-- A blank line between any two lines, in front of them, or behind. -/
  | blankLine (above below : List (List Char)) {line : List Char}
      (blank : ∀ c ∈ line, Text.isBlank c = true) (noFeed : '\n' ∉ line) :
      LayoutChange (['\n'].intercalate (above ++ below))
        (['\n'].intercalate (above ++ line :: below))
  /-- Blank characters around any field of a line. -/
  | aroundField (above below : List (List Char)) (left right : List (List Char))
      {field wide : List Char} (h : GetsBlanks field wide)
      (noFeed : '\n' ∉ [','].intercalate (left ++ field :: right)) :
      LayoutChange
        (['\n'].intercalate (above ++ [','].intercalate (left ++ field :: right) :: below))
        (['\n'].intercalate (above ++ [','].intercalate (left ++ wide :: right) :: below))
  /-- A carriage return in front of a line feed. -/
  | carriageReturn (above below : List Char) :
      LayoutChange (above ++ '\n' :: below) (above ++ '\r' :: '\n' :: below)
  /-- No end of the last line. -/
  | withoutEnd (s : List Char) {ending : List Char} (h : ending = ['\n'] ∨ ending = ['\r', '\n']) :
      LayoutChange (s ++ ending) s
  /-- An end of the last line. -/
  | withEnd (s : List Char) {ending : List Char} (h : ending = ['\n'] ∨ ending = ['\r', '\n']) :
      LayoutChange s (s ++ ending)
  /-- The same number of further columns in all lines of data. -/
  | columns {count : ℕ} {lines wide : List (List Char)} (noFeed : ∀ line ∈ lines, '\n' ∉ line)
      (h : Widened count true lines wide) :
      LayoutChange (['\n'].intercalate lines) (['\n'].intercalate wide)

/-! ## Fields of the lines of data -/

/-- The fields of the lines that are not blank. -/
def filledFields (s : List Char) : List (List (List Char)) := (filledLines s).map fieldsOf

/-- Whether the first of some fields is a number. -/
def leadsWithNumber (fields : List (List Char)) : Bool :=
  (fields.head?.bind Binary64.ofChars?).isSome

/-- The fields of lines without those of a header, where the first line may be one. -/
def ofData : Bool → List (List (List Char)) → List (List (List Char))
  | true, fields :: rest => if leadsWithNumber fields then fields :: rest else rest
  | _, lines => lines

/-- The fields of the lines of data. -/
def dataFields (s : List Char) : List (List (List Char)) := ofData true (filledFields s)

/-- The fields of the lines of data are found among the fields of all lines. -/
theorem map_fieldsOf_dataLines (s : List Char) : (dataLines s).map fieldsOf = dataFields s := by
  unfold dataLines dataFields filledFields
  cases filledLines s with
  | nil => rfl
  | cons line rest =>
    show (if startsWithNumber line then line :: rest else rest).map fieldsOf =
      if startsWithNumber line then fieldsOf line :: rest.map fieldsOf else rest.map fieldsOf
    split <;> rfl

/-- A first line that does not lead with a number is left out. -/
theorem ofData_header {fields : List (List Char)} (h : leadsWithNumber fields = false)
    (rest : List (List (List Char))) : ofData true (fields :: rest) = rest := by
  rw [ofData, h]
  rfl

/-- A line is kept that leads with a number, and so is every line that cannot be a header. -/
theorem ofData_cons {leading : Bool} {fields : List (List Char)}
    (h : leading = true → leadsWithNumber fields = true) (rest : List (List (List Char))) :
    ofData leading (fields :: rest) = fields :: rest := by
  cases leading with
  | false => rfl
  | true => rw [ofData, if_pos (h rfl)]

/-- A text of a table in terms of the fields of its lines of data. -/
theorem ofChars_eq_ok_iff_dataFields {s : List Char} {t : LatencyTable} :
    ofChars s = .ok t ↔
      ∃ width, leastColumns ≤ width ∧
        List.Forall₂ (fun fields row => fields.length = width ∧ Holds fields row)
          (dataFields s) t.rows := by
  unfold ofChars
  rw [ofRecords_eq_ok_iff, ← map_fieldsOf_dataLines, ← fields_dataRecords]
  simp only [List.forall₂_map_left_iff]

/-! ## Lines of a text -/

/-- The lines around a line feed are independent of each other. -/
theorem filledFields_append (above below : List Char) :
    filledFields (above ++ '\n' :: below) = filledFields above ++ filledFields below := by
  unfold filledFields filledLines
  rw [Text.split_append_separator, List.filter_append, List.map_append]

/-- A blank line has no fields. -/
theorem filledFields_of_blank {line : List Char} (noFeed : '\n' ∉ line)
    (blank : line.all Text.isBlank = true) : filledFields line = [] := by
  unfold filledFields filledLines
  rw [Text.split_of_not_mem noFeed, List.filter_cons_of_neg (by simp [blank])]
  rfl

/-- A line that is not blank has its own fields only. -/
theorem filledFields_of_filled {line : List Char} (noFeed : '\n' ∉ line)
    (filled : line.all Text.isBlank = false) : filledFields line = [fieldsOf line] := by
  unfold filledFields filledLines
  rw [Text.split_of_not_mem noFeed, List.filter_cons_of_pos (by simp [filled])]
  rfl

/-- The fields of lines are the fields of each of them in turn. -/
theorem filledFields_intercalate (lines : List (List Char)) :
    filledFields (['\n'].intercalate lines) = lines.flatMap filledFields := by
  match lines with
  | [] => rfl
  | [line] => rw [List.intercalate_singleton, List.flatMap_singleton]
  | line :: next :: rest =>
    rw [List.intercalate_cons_cons, List.append_assoc, List.singleton_append, filledFields_append,
      filledFields_intercalate (next :: rest)]
    rfl

/-- A blank character at the end of a text does not change the fields of its lines. -/
theorem filledFields_concat {c : Char} (blank : Text.isBlank c = true) (other : c ≠ '\n')
    (s : List Char) : filledFields (s ++ [c]) = filledFields s := by
  obtain ⟨front, last, pieces, more⟩ := Text.split_concat (s := s) other
  unfold filledFields filledLines
  rw [pieces, more, List.filter_append, List.filter_append, List.map_append, List.map_append]
  congr 1
  have same : (last ++ [c]).all Text.isBlank = last.all Text.isBlank := by
    rw [List.all_append]
    simp [blank]
  cases filled : last.all Text.isBlank with
  | true =>
    rw [List.filter_cons_of_neg (by simp [same, filled]),
      List.filter_cons_of_neg (by simp [filled])]
  | false =>
    rw [List.filter_cons_of_pos (by simp [same, filled]),
      List.filter_cons_of_pos (by simp [filled])]
    exact congrArg (fun fields => [fields]) (fieldsOf_concat blank last)

/-- The end of a line behind the last one changes nothing. -/
theorem dataFields_append_end (s : List Char) {ending : List Char}
    (h : ending = ['\n'] ∨ ending = ['\r', '\n']) : dataFields (s ++ ending) = dataFields s := by
  have feed (text : List Char) : filledFields (text ++ ['\n']) = filledFields text := by
    rw [filledFields_append]
    exact List.append_nil _
  unfold dataFields
  rcases h with rfl | rfl
  · rw [feed]
  · rw [List.append_cons, feed, filledFields_concat rfl (by decide)]

/-! ## Blank characters around a field -/

/-- The fields of a line are those between its commas, in turn. -/
theorem fieldsOf_intercalate (left right : List (List Char)) (field : List Char) :
    fieldsOf ([','].intercalate (left ++ field :: right)) =
      left.flatMap fieldsOf ++ (fieldsOf field ++ right.flatMap fieldsOf) := by
  have several : left ++ field :: right ≠ [] := by simp
  unfold fieldsOf
  rw [Text.split_intercalate several, List.map_flatMap, List.flatMap_append, List.flatMap_cons]

/-- Every line has a field. -/
theorem fieldsOf_ne_nil (line : List Char) : fieldsOf line ≠ [] := by
  unfold fieldsOf
  rw [ne_eq, List.map_eq_nil_iff]
  exact Text.split_ne_nil ',' line

/-- Blank characters around a line do not change its fields. -/
theorem fieldsOf_append_of_blank {front back : List Char} (s : List Char)
    (hfront : ∀ c ∈ front, Text.isBlank c = true) (hback : ∀ c ∈ back, Text.isBlank c = true) :
    fieldsOf (front ++ (s ++ back)) = fieldsOf s :=
  Text.map_trim_split_append_of_blank rfl s hfront hback

section Blanks

variable {field wide : List Char}

/-- Blank characters around a field do not change what is in it. -/
theorem GetsBlanks.fieldsOf_eq (h : GetsBlanks field wide) : fieldsOf wide = fieldsOf field := by
  obtain ⟨front, middle, back, before, behind, rfl, rfl, blank, more⟩ := h
  simp only [List.mem_append] at blank more
  rw [fieldsOf_append_of_blank middle, fieldsOf_append_of_blank middle]
  · exact fun c member => blank c (.inl member)
  · exact fun c member => blank c (.inr member)
  · intro c member
    rcases List.mem_append.1 member with old | new
    · exact blank c (.inl old)
    · exact (more c (.inl new)).1
  · intro c member
    rcases List.mem_append.1 member with new | old
    · exact (more c (.inr new)).1
    · exact blank c (.inr old)

/-- None of the blank characters is a line feed. -/
theorem GetsBlanks.not_mem (h : GetsBlanks field wide) (noFeed : '\n' ∉ field) : '\n' ∉ wide := by
  obtain ⟨front, middle, back, before, behind, rfl, rfl, -, more⟩ := h
  have none : '\n' ∉ before ++ behind := fun member => (more _ member).2 rfl
  simp only [List.mem_append, not_or] at noFeed none ⊢
  exact ⟨⟨noFeed.1, none.1⟩, noFeed.2.1, none.2, noFeed.2.2⟩

/-- Blank characters make no field filled, nor blank. -/
theorem GetsBlanks.all_isBlank (h : GetsBlanks field wide) :
    wide.all Text.isBlank = field.all Text.isBlank := by
  obtain ⟨front, middle, back, before, behind, rfl, rfl, -, more⟩ := h
  have blank : before.all Text.isBlank = true ∧ behind.all Text.isBlank = true := by
    rw [← Bool.and_eq_true, ← List.all_append, List.all_eq_true]
    exact fun c member => (more c member).1
  simp only [List.all_append, blank, Bool.and_true, Bool.true_and]

/-- Blank characters around a field do not change the fields of the lines it stands in. -/
theorem GetsBlanks.filledFields_eq (h : GetsBlanks field wide) {left right : List (List Char)}
    (noFeed : '\n' ∉ [','].intercalate (left ++ field :: right)) :
    filledFields ([','].intercalate (left ++ wide :: right)) =
      filledFields ([','].intercalate (left ++ field :: right)) := by
  obtain ⟨start, rest, joined⟩ := Text.exists_intercalate ',' left right
  have still : '\n' ∉ [','].intercalate (left ++ wide :: right) := by
    rw [joined] at noFeed ⊢
    simp only [List.mem_append, not_or] at noFeed ⊢
    exact ⟨noFeed.1, h.not_mem noFeed.2.1, noFeed.2.2⟩
  have blank : ([','].intercalate (left ++ wide :: right)).all Text.isBlank =
      ([','].intercalate (left ++ field :: right)).all Text.isBlank := by
    rw [joined, joined]
    simp only [List.all_append, h.all_isBlank]
  cases filled : ([','].intercalate (left ++ field :: right)).all Text.isBlank with
  | true =>
    rw [filledFields_of_blank noFeed filled, filledFields_of_blank still (blank.trans filled)]
  | false =>
    rw [filledFields_of_filled noFeed filled, filledFields_of_filled still (blank.trans filled),
      fieldsOf_intercalate, fieldsOf_intercalate, h.fieldsOf_eq]

end Blanks

/-! ## Further columns -/

/-- Fields with a number of others behind them. -/
def WithMore (count : ℕ) (fields wide : List (List Char)) : Prop :=
  ∃ more, more.length = count ∧ wide = fields ++ more

/-- Fields with none behind them are the fields themselves. -/
theorem WithMore.refl (fields : List (List Char)) : WithMore 0 fields fields :=
  ⟨[], rfl, (List.append_nil fields).symm⟩

/-- Whether fields lead with a number does not depend on what is behind them. -/
theorem WithMore.leadsWithNumber_eq {count : ℕ} {fields wide : List (List Char)}
    (h : WithMore count fields wide) (some : fields ≠ []) :
    leadsWithNumber wide = leadsWithNumber fields := by
  obtain ⟨more, -, rfl⟩ := h
  obtain ⟨field, rest, rfl⟩ := List.exists_cons_of_ne_nil some
  rfl

/-- Fields that hold a row hold it with others behind them too. -/
theorem WithMore.holds {count width : ℕ} {fields wide : List (List Char)} {row : LatencyRow}
    (h : WithMore count fields wide) (own : fields.length = width ∧ Holds fields row) :
    wide.length = width + count ∧ Holds wide row := by
  obtain ⟨more, rfl, rfl⟩ := h
  obtain ⟨rfl, size, random, sequential, rest, rfl, values⟩ := own
  exact ⟨List.length_append, size, random, sequential, rest ++ more, rfl, values⟩

/-- Further columns are further fields. -/
theorem fieldsOf_append_columns (front : List Char) {columns : List (List Char)}
    (h : ∀ column ∈ columns, ',' ∉ column) :
    fieldsOf (front ++ columns.flatMap fun column => ',' :: column) =
      fieldsOf front ++ columns.map Text.trim := by
  induction columns generalizing front with
  | nil => simp
  | cons column columns ih =>
    have first : fieldsOf (front ++ ',' :: column) = fieldsOf front ++ [Text.trim column] := by
      unfold fieldsOf
      rw [Text.split_append_separator, Text.split_of_not_mem (h column List.mem_cons_self),
        List.map_append, List.map_singleton]
    have others := ih (front ++ ',' :: column) fun c hc => h c (List.mem_cons_of_mem column hc)
    rw [List.flatMap_cons, ← List.append_assoc, others, first, List.append_assoc,
      List.singleton_append, List.map_cons]

section Columns

variable {count : ℕ} {line wide : List Char}

/-- A line with further columns has as many further fields. -/
theorem GetsColumns.withMore (h : GetsColumns count line wide) :
    WithMore count (fieldsOf line) (fieldsOf wide) := by
  obtain ⟨front, ending, columns, rfl, rfl, blank, length, plain⟩ := h
  have cut (s : List Char) : fieldsOf (s ++ ending) = fieldsOf s := by
    show fieldsOf ([] ++ (s ++ ending)) = fieldsOf s
    exact fieldsOf_append_of_blank s (by simp) blank
  rw [← List.append_assoc, cut, cut, fieldsOf_append_columns front fun c hc => (plain c hc).1]
  exact ⟨columns.map Text.trim, by rw [List.length_map, length], rfl⟩

/-- No further column holds a line feed. -/
theorem GetsColumns.not_mem (h : GetsColumns count line wide) (noFeed : '\n' ∉ line) :
    '\n' ∉ wide := by
  obtain ⟨front, ending, columns, rfl, rfl, -, -, plain⟩ := h
  simp only [List.mem_append, List.mem_flatMap, List.mem_cons, not_or, not_exists, not_and]
    at noFeed ⊢
  exact ⟨noFeed.1, fun c hc => ⟨by decide, (plain c hc).2⟩, noFeed.2⟩

/-- A line that is not blank does not become blank by further columns. -/
theorem GetsColumns.all_isBlank (h : GetsColumns count line wide)
    (filled : line.all Text.isBlank = false) : wide.all Text.isBlank = false := by
  obtain ⟨front, ending, columns, rfl, rfl, blank, -, -⟩ := h
  have rest : ending.all Text.isBlank = true := List.all_eq_true.2 blank
  rw [List.all_append, rest, Bool.and_true] at filled
  rw [List.all_append, filled, Bool.false_and]

end Columns

/-- Each line of data has the fields it had and as many more as it has further columns. -/
theorem Widened.forall₂ {count : ℕ} {leading : Bool} {lines wide : List (List Char)}
    (h : Widened count leading lines wide) (noFeed : ∀ line ∈ lines, '\n' ∉ line) :
    List.Forall₂ (WithMore count) (ofData leading (lines.flatMap filledFields))
      (ofData leading (wide.flatMap filledFields)) := by
  -- The flag of the lines is also that of `ofData`: both fall with the first line that is not blank.
  induction h with
  | @nil leading => cases leading <;> exact List.Forall₂.nil
  | blank blank _ ih =>
    have none := filledFields_of_blank (noFeed _ List.mem_cons_self) blank
    rw [List.flatMap_cons, List.flatMap_cons, none]
    exact ih fun line member => noFeed line (List.mem_cons_of_mem _ member)
  | header filled words _ ih =>
    have fields := filledFields_of_filled (noFeed _ List.mem_cons_self) filled
    rw [List.flatMap_cons, List.flatMap_cons, fields, List.singleton_append,
      List.singleton_append, ofData_header words, ofData_header words]
    exact ih fun line member => noFeed line (List.mem_cons_of_mem _ member)
  | data filled number columns _ ih =>
    have own := noFeed _ List.mem_cons_self
    have fields := filledFields_of_filled own filled
    have more := filledFields_of_filled (columns.not_mem own) (columns.all_isBlank filled)
    have still := columns.withMore.leadsWithNumber_eq (fieldsOf_ne_nil _)
    -- A line that may be a header starts with a number, and still does with further columns.
    rw [List.flatMap_cons, List.flatMap_cons, fields, more, List.singleton_append,
      List.singleton_append, ofData_cons number, ofData_cons fun h => still.trans (number h)]
    exact List.Forall₂.cons columns.withMore
      (ih fun line member => noFeed line (List.mem_cons_of_mem _ member))

/-! ## The same table -/

/-- Lines that hold rows hold the same rows with further fields behind them, in a larger width. -/
theorem forall₂_holds_of_withMore {count width : ℕ} {lines wide : List (List (List Char))}
    {rows : List LatencyRow} (h : List.Forall₂ (WithMore count) lines wide)
    (own : List.Forall₂ (fun fields row => fields.length = width ∧ Holds fields row) lines rows) :
    List.Forall₂ (fun fields row => fields.length = width + count ∧ Holds fields row)
      wide rows := by
  induction h generalizing rows with
  | nil =>
    rw [List.forall₂_nil_left_iff.1 own]
    exact List.Forall₂.nil
  | cons first _ ih =>
    obtain ⟨row, others, read, below, rfl⟩ := List.forall₂_cons_left_iff.1 own
    exact List.Forall₂.cons (first.holds read) (ih below)

/-- A text stays a text of the same table if its lines of data get the same number of further
fields. -/
theorem ofChars_of_withMore {s t : List Char} {table : LatencyTable} {count : ℕ}
    (h : List.Forall₂ (WithMore count) (dataFields s) (dataFields t))
    (read : ofChars s = .ok table) : ofChars t = .ok table := by
  rw [ofChars_eq_ok_iff_dataFields] at read ⊢
  obtain ⟨width, enough, rows⟩ := read
  exact ⟨width + count, by omega, forall₂_holds_of_withMore h rows⟩

/-- A change of layout gives each line of data the same number of further fields, none but for
further columns. -/
theorem LayoutChange.exists_forall₂ {s t : List Char} (h : LayoutChange s t) :
    ∃ count, List.Forall₂ (WithMore count) (dataFields s) (dataFields t) := by
  have equal {s t : List Char} (same : dataFields s = dataFields t) :
      ∃ count, List.Forall₂ (WithMore count) (dataFields s) (dataFields t) :=
    ⟨0, same ▸ List.forall₂_same.2 fun fields _ => WithMore.refl fields⟩
  cases h with
  | blankLine above below blank noFeed =>
    have none := filledFields_of_blank noFeed (List.all_eq_true.2 blank)
    refine equal ?_
    unfold dataFields
    rw [filledFields_intercalate, filledFields_intercalate, List.flatMap_append,
      List.flatMap_append, List.flatMap_cons, none, List.nil_append]
  | aroundField above below left right h noFeed =>
    have same := h.filledFields_eq noFeed
    refine equal ?_
    unfold dataFields
    simp only [filledFields_intercalate, List.flatMap_append, List.flatMap_cons, same]
  | carriageReturn above below =>
    -- The carriage return is a blank character at the end of the text above the line feed.
    refine equal ?_
    unfold dataFields
    rw [List.append_cons above '\r', filledFields_append, filledFields_append,
      filledFields_concat rfl (by decide)]
  | withoutEnd _ h => exact equal (dataFields_append_end _ h)
  | withEnd _ h => exact equal (dataFields_append_end _ h).symm
  | @columns count _ _ noFeed h =>
    refine ⟨count, ?_⟩
    unfold dataFields
    rw [filledFields_intercalate, filledFields_intercalate]
    exact h.forall₂ noFeed

/-- A text that is read as a table is read as the same table after any changes of its layout. -/
theorem read_of_layoutChanges {s t : List Char} (h : Relation.ReflTransGen LayoutChange s t)
    {table : LatencyTable} (read : (LatencyTable.read s).result = .ok table) :
    (LatencyTable.read t).result = .ok table := by
  rw [result_read] at read ⊢
  induction h with
  | refl => exact read
  | tail _ change ih =>
    obtain ⟨count, lines⟩ := change.exists_forall₂
    exact ofChars_of_withMore lines ih

/-- The names of columns. -/
def namesLine : List Char := "size,random,sequential".toList

/-- A row under names. -/
def narrowText : List Char :=
  ['\n'].intercalate [namesLine, [','].intercalate ["100".toList, "1".toList, "2".toList]]

/-- The same row, with a blank line above the names, a space in front of its size, one column more,
and ends of line that are not all the same. -/
def wideText : List Char := " \r\nsize,random,sequential\n 100,1,2,first\r\n".toList

/-- The row is read alike in both texts, which are five changes of layout apart. -/
theorem read_of_layoutChanges_wideText :
    Relation.ReflTransGen LayoutChange narrowText wideText ∧
      ∃ table, (read narrowText).result = .ok table ∧ (read wideText).result = .ok table := by
  let row := [','].intercalate ["100".toList, "1".toList, "2".toList]
  let indented := [','].intercalate [[' '] ++ ("100".toList ++ []), "1".toList, "2".toList]
  let longer := indented ++ ([",first".toList].flatten ++ [])
  have top : LayoutChange narrowText (['\n'].intercalate [[' '], namesLine, row]) :=
    LayoutChange.blankLine [] [namesLine, row] (List.forall_mem_singleton.2 rfl) (by decide)
  have space : LayoutChange (['\n'].intercalate [[' '], namesLine, row])
      (['\n'].intercalate [[' '], namesLine, indented]) := by
    have wide : GetsBlanks "100".toList ([' '] ++ ("100".toList ++ [])) :=
      ⟨[], "100".toList, [], [' '], [], by decide +kernel, by decide +kernel, by simp,
        List.forall_mem_singleton.2 ⟨rfl, by decide⟩⟩
    exact LayoutChange.aroundField [[' '], namesLine] [] [] ["1".toList, "2".toList] wide
      (by decide +kernel)
  have column : LayoutChange (['\n'].intercalate [[' '], namesLine, indented])
      (['\n'].intercalate [[' '], namesLine, longer]) := by
    have wide : GetsColumns 1 indented longer :=
      ⟨indented, [], ["first".toList], (List.append_nil _).symm, by decide +kernel, by simp, rfl,
        by decide +kernel⟩
    exact LayoutChange.columns (by decide +kernel) (.blank rfl (.header (by decide +kernel)
      (by decide +kernel) (.data (by decide +kernel) (by decide) wide .nil)))
  have feed : LayoutChange (['\n'].intercalate [[' '], namesLine, longer])
      ([' '] ++ '\r' :: '\n' :: ['\n'].intercalate [namesLine, longer]) :=
    LayoutChange.carriageReturn [' '] (['\n'].intercalate [namesLine, longer])
  have last := LayoutChange.withEnd
    ([' '] ++ '\r' :: '\n' :: ['\n'].intercalate [namesLine, longer]) (.inr rfl)
  have written : ([' '] ++ '\r' :: '\n' :: ['\n'].intercalate [namesLine, longer]) ++ ['\r', '\n'] =
      wideText := by decide +kernel
  rw [written] at last
  have changes : Relation.ReflTransGen LayoutChange narrowText wideText :=
    (((((Relation.ReflTransGen.single top).tail space).tail column).tail feed).tail last)
  have plain : (read narrowText).result =
      .ok ⟨[⟨100, Binary64.ofNat 1, Binary64.ofNat 2⟩]⟩ := by decide +kernel
  exact ⟨changes, _, plain, read_of_layoutChanges changes plain⟩

end LatencyTable

end AccessLatency
