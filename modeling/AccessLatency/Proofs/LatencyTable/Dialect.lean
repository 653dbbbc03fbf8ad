import AccessLatency.Proofs.LatencyTable.Reading
import AccessLatency.Proofs.Text.Split
import Mathlib.Data.List.Forall2
import Mathlib.Tactic

/-!
# The texts that are tables

What the reader takes is said here over the lines of a text: those that are not blank, without the
first of them if it does not start with a number. A text is a table exactly if these lines have one
common number of fields, three at least, of which the first is a size and the next two are finite
numbers, and the table that is read then has one row for each of them. The records of the reader
carry the same fields as the lines, `fields_dataRecords`, and what is read from records in order is
a pointwise relation between records and rows; `read_dialect` puts both together.
-/

set_option autoImplicit false

namespace AccessLatency

namespace LatencyTable

/-- The fields of a line, each without the blank characters around it. -/
def fieldsOf (line : List Char) : List (List Char) := (Text.split ',' line).map Text.trim

/-- The lines of a text that are not blank. -/
def filledLines (s : List Char) : List (List Char) :=
  (Text.split '\n' s).filter fun line => !line.all Text.isBlank

/-- Whether the leading field of a line is a number. -/
def startsWithNumber (line : List Char) : Bool :=
  ((fieldsOf line).head?.bind Binary64.ofChars?).isSome

/-- The lines of a text that hold data: not blank, and no header in front. -/
def dataLines (s : List Char) : List (List Char) :=
  match filledLines s with
  | [] => []
  | line :: rest => if startsWithNumber line then line :: rest else rest

/-- Fields that hold a row: a size, a finite latency and another, in front of any others. -/
def Holds (fields : List (List Char)) (row : LatencyRow) : Prop :=
  ∃ size random sequential rest, fields = size :: random :: sequential :: rest ∧
    readSize? size = some row.size ∧
    (Binary64.ofChars? random = some row.random ∧ row.random.isFinite = true) ∧
    Binary64.ofChars? sequential = some row.sequential ∧ row.sequential.isFinite = true

/-- A text whose lines of data are rows of one width. -/
structure InDialect (s : List Char) : Prop where
  width : ∃ width, leastColumns ≤ width ∧ ∀ line ∈ dataLines s, (fieldsOf line).length = width
  rows : ∀ line ∈ dataLines s, ∃ row, Holds (fieldsOf line) row

/-! ## Records and lines -/

/-- The record of a line has its fields, unless the line is blank. -/
theorem record?_eq (number : Nat) (line : List Char) :
    record? number line =
      if line.all Text.isBlank then none else some ⟨number, fieldsOf line⟩ := by
  have blank : (Text.trim line).isEmpty = line.all Text.isBlank := by
    rw [Bool.eq_iff_iff, List.isEmpty_iff, Text.trim_eq_nil_iff, List.all_eq_true]
  have solid : Text.isBlank ',' = false := rfl
  unfold record?
  dsimp only
  rw [blank, Text.map_trim_split_trim solid]
  rfl

/-- A blank character at the end of a line does not change its fields. -/
theorem fieldsOf_concat {c : Char} (blank : Text.isBlank c = true) (line : List Char) :
    fieldsOf (line ++ [c]) = fieldsOf line :=
  Text.map_trim_split_concat rfl blank line

/-- The records of lines have the fields of the lines that are not blank. -/
theorem fields_recordsFrom (number : Nat) (lines : List (List Char)) :
    (recordsFrom number lines).map Record.fields =
      (lines.filter fun line => !line.all Text.isBlank).map fieldsOf := by
  induction lines generalizing number with
  | nil => rfl
  | cons line rest ih =>
    rw [recordsFrom, record?_eq]
    cases blank : line.all Text.isBlank with
    | true =>
      rw [List.filter_cons_of_neg (by simp [blank])]
      exact ih (number + 1)
    | false =>
      rw [List.filter_cons_of_pos (by simp [blank]), List.map_cons, ← ih (number + 1)]
      rfl

/-- The record of a line is a header exactly if the line does not start with a number. -/
theorem isHeader_eq {r : Record} {line : List Char} (h : r.fields = fieldsOf line) :
    isHeader r = !startsWithNumber line := by
  unfold isHeader startsWithNumber
  rw [h]
  cases fieldsOf line with
  | nil => rfl
  | cons field rest =>
    show (Binary64.ofChars? field).isNone = !(Binary64.ofChars? field).isSome
    rw [Option.not_isSome]

/-- The records of data have the fields of the lines of data. -/
theorem fields_dataRecords (s : List Char) :
    (dataRecords s).map Record.fields = (dataLines s).map fieldsOf := by
  have all : (records s).map Record.fields = (filledLines s).map fieldsOf :=
    fields_recordsFrom 1 _
  unfold dataRecords dataLines
  cases lines : filledLines s with
  | nil =>
    rw [lines, List.map_nil, List.map_eq_nil_iff] at all
    rw [all]
    rfl
  | cons line rest =>
    rw [lines, List.map_cons] at all
    obtain ⟨r, others, found, same, tail⟩ := List.map_eq_cons_iff.1 all
    rw [found, dropHeader, isHeader_eq same]
    cases number : startsWithNumber line with
    | true =>
      simp only [number, Bool.not_true, Bool.false_eq_true, if_false, if_true]
      rw [List.map_cons, List.map_cons, same, tail]
    | false => simpa [number] using tail

/-! ## Reading in order -/

/-- A latency is read from the literals of finite numbers, and from no others. -/
theorem readLatency?_eq_some_iff {field : List Char} {v : Binary64} :
    readLatency? field = some v ↔ Binary64.ofChars? field = some v ∧ v.isFinite = true := by
  unfold readLatency?
  cases Binary64.ofChars? field with
  | none => simp
  | some w =>
    cases finite : w.isFinite with
    | true =>
      simp only [finite, if_true, Option.some.injEq]
      constructor
      · rintro rfl
        exact ⟨rfl, finite⟩
      · exact And.left
    | false =>
      simp only [finite, Bool.false_eq_true, if_false, Option.some.injEq, reduceCtorEq, false_iff,
        not_and]
      rintro rfl
      rw [finite]
      decide

/-- Fields are read as a row exactly if they hold it. -/
theorem readFields_eq_ok_iff {fields : List (List Char)} {row : LatencyRow} :
    readFields fields = .ok row ↔ Holds fields row := by
  constructor
  · intro read
    match fields, read with
    | size :: random :: sequential :: rest, read =>
      cases first : readSize? size with
      | none => simp [readFields, first] at read
      | some n =>
        cases second : readLatency? random with
        | none => simp [readFields, first, second] at read
        | some x =>
          cases third : readLatency? sequential with
          | none => simp [readFields, first, second, third] at read
          | some y =>
            obtain rfl : ⟨n, x, y⟩ = row := by simpa [readFields, first, second, third] using read
            exact ⟨size, random, sequential, rest, rfl, first, readLatency?_eq_some_iff.1 second,
              readLatency?_eq_some_iff.1 third⟩
  · rintro ⟨size, random, sequential, rest, rfl, first, second, third⟩
    simp only [readFields, first, readLatency?_eq_some_iff.2 second,
      readLatency?_eq_some_iff.2 third]

/-- A record is read as a row exactly if it has the width of the table and holds the row. -/
theorem readRow_eq_ok_iff {width : Nat} {r : Record} {row : LatencyRow} :
    readRow width r = .ok row ↔ r.fields.length = width ∧ Holds r.fields row := by
  unfold readRow
  rw [← readFields_eq_ok_iff]
  by_cases wide : r.fields.length = width
  · rw [if_pos wide]
    cases readFields r.fields <;> simp [wide]
  · rw [if_neg wide]
    simp [wide]

/-- Records are read one by one, in order, each as one row. -/
theorem readRows_eq_ok_iff {width : Nat} {records : List Record} {rows : List LatencyRow} :
    readRows width records = .ok rows ↔
      List.Forall₂ (fun r row => readRow width r = .ok row) records rows := by
  induction records generalizing rows with
  | nil =>
    rw [readRows, List.forall₂_nil_left_iff, Except.ok.injEq]
    exact eq_comm
  | cons r rest ih =>
    rw [List.forall₂_cons_left_iff, readRows]
    constructor
    · intro read
      cases first : readRow width r with
      | error e =>
        rw [first] at read
        cases read
      | ok row =>
        cases others : readRows width rest with
        | error e =>
          rw [first, others] at read
          cases read
        | ok tail =>
          rw [first, others] at read
          cases read
          exact ⟨row, tail, rfl, ih.1 others, rfl⟩
    · rintro ⟨row, tail, first, others, rfl⟩
      rw [first, ih.2 others]

/-- Records are read as a table exactly if they have one width, three fields at least, and hold its
rows one by one. -/
theorem ofRecords_eq_ok_iff {records : List Record} {t : LatencyTable} :
    ofRecords records = .ok t ↔
      ∃ width, leastColumns ≤ width ∧
        List.Forall₂ (fun r row => r.fields.length = width ∧ Holds r.fields row)
          records t.rows := by
  cases records with
  | nil =>
    rw [ofRecords]
    constructor
    · rintro ⟨⟩
      exact ⟨leastColumns, le_refl _, List.Forall₂.nil⟩
    · rintro ⟨width, -, none⟩
      have empty : t.rows = [] := List.forall₂_nil_left_iff.1 none
      cases t
      cases empty
      rfl
  | cons r rest =>
    simp only [← readRow_eq_ok_iff]
    rw [ofRecords]
    constructor
    · intro read
      by_cases narrow : r.fields.length < leastColumns
      · rw [if_pos narrow] at read
        cases read
      · rw [if_neg narrow] at read
        refine ⟨r.fields.length, not_lt.1 narrow, ?_⟩
        cases found : readRows r.fields.length (r :: rest) with
        | error e =>
          rw [found] at read
          cases read
        | ok rows =>
          rw [found] at read
          cases read
          exact readRows_eq_ok_iff.1 found
    · rintro ⟨width, wide, rows⟩
      have first : r.fields.length = width := by
        obtain ⟨row, -, read, -, -⟩ := List.forall₂_cons_left_iff.1 rows
        exact (readRow_eq_ok_iff.1 read).1
      rw [← first] at wide rows
      rw [if_neg (not_lt.2 wide), readRows_eq_ok_iff.2 rows]

/-! ## The dialect -/

/-- A text is read as a table exactly if its lines of data have one width and hold the rows of the
table, each line one row. -/
theorem ofChars_eq_ok_iff {s : List Char} {t : LatencyTable} :
    ofChars s = .ok t ↔
      (∃ width, leastColumns ≤ width ∧ ∀ line ∈ dataLines s, (fieldsOf line).length = width) ∧
        List.Forall₂ (fun line row => Holds (fieldsOf line) row) (dataLines s) t.rows := by
  -- Records and lines differ in the line numbers only, so both sides are said over fields.
  have lines : ∀ width : Nat,
      List.Forall₂ (fun r row => r.fields.length = width ∧ Holds r.fields row)
          (dataRecords s) t.rows ↔
        (∀ line ∈ dataLines s, (fieldsOf line).length = width) ∧
          List.Forall₂ (fun line row => Holds (fieldsOf line) row) (dataLines s) t.rows := by
    intro width
    rw [← List.forall₂_map_left_iff (f := Record.fields)
      (R := fun fields row => fields.length = width ∧ Holds fields row), fields_dataRecords,
      List.forall₂_map_left_iff, List.forall₂_and_left]
  unfold ofChars
  rw [ofRecords_eq_ok_iff]
  simp only [lines]
  tauto

/-- If each of several lines holds a row, there are rows that they hold one by one. -/
theorem exists_forall₂_holds {lines : List (List Char)}
    (h : ∀ line ∈ lines, ∃ row, Holds (fieldsOf line) row) :
    ∃ rows, List.Forall₂ (fun line row => Holds (fieldsOf line) row) lines rows := by
  induction lines with
  | nil => exact ⟨[], List.Forall₂.nil⟩
  | cons line rest ih =>
    obtain ⟨row, first⟩ := h line (by simp)
    obtain ⟨rows, others⟩ := ih fun other member => h other (List.mem_cons_of_mem line member)
    exact ⟨row :: rows, List.Forall₂.cons first others⟩

/-- The reader accepts exactly the texts of its dialect, and from such a text it reads one row for
each line of data, in order, with the values of the first three fields of the line. -/
theorem read_dialect (s : List Char) :
    ((∃ t, (read s).result = .ok t) ↔ InDialect s) ∧
      ∀ t, (read s).result = .ok t →
        t.rows.length = (dataLines s).length ∧
          List.Forall₂ (fun line row => Holds (fieldsOf line) row) (dataLines s) t.rows := by
  simp only [result_read, ofChars_eq_ok_iff]
  refine ⟨⟨?_, ?_⟩, ?_⟩
  · rintro ⟨t, width, rows⟩
    refine ⟨width, ?_⟩
    intro line member
    obtain ⟨n, bound, rfl⟩ := List.getElem_of_mem member
    have matched := rows.get bound (rows.length_eq ▸ bound)
    exact ⟨_, matched⟩
  · rintro ⟨width, rows⟩
    obtain ⟨found, holds⟩ := exists_forall₂_holds rows
    exact ⟨⟨found⟩, width, holds⟩
  · rintro t ⟨-, rows⟩
    exact ⟨rows.length_eq.symm, rows⟩

end LatencyTable

end AccessLatency
