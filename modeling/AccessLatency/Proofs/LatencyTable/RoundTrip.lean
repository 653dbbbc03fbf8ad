import AccessLatency.Proofs.Binary64.ReadBack
import AccessLatency.Proofs.LatencyTable.Reading
import AccessLatency.Proofs.Text.Split
import Mathlib.Tactic

/-!
# Written tables are read back

A table that is written as lines, with a header or without, is read back row by row, each size and
each latency as it was. The reader refuses numbers that are not finite, and the writer does not, so
a table with such a latency is not read: the fault then names the line of the first row that has
one. `readRows_written` says both at once, by what the reader finds in the records of written rows;
the main statement is `read_toText`.
-/

set_option autoImplicit false

namespace AccessLatency

namespace LatencyRow

/-- Whether both latencies of a row are finite numbers. -/
def IsFinite (r : LatencyRow) : Prop := r.random.isFinite = true ∧ r.sequential.isFinite = true

/-- The first latency of a row that is no finite number. -/
def unreadable? (r : LatencyRow) : Option Binary64 :=
  [r.random, r.sequential].find? fun v => !v.isFinite

/-- A row has nothing that cannot be read exactly if both latencies are finite. -/
theorem unreadable?_eq_none_iff {r : LatencyRow} : r.unreadable? = none ↔ r.IsFinite := by
  simp [unreadable?, IsFinite]

/-- The fields that a row is written as. -/
def fields (r : LatencyRow) : List (List Char) :=
  [Text.decimal r.size.toNat, r.random.chars, r.sequential.chars]

end LatencyRow

namespace LatencyTable

/-! ## The fields of a written row -/

/-- A text that stands in a field as it is: nothing in it is blank or a comma. -/
def IsField (s : List Char) : Prop := ∀ c ∈ s, Text.isBlank c = false ∧ c ≠ ','

/-- Digits stand in a field as they are. -/
theorem isField_decimal (n : Nat) : IsField (Text.decimal n) := by
  intro c hc
  have digit := Text.isDigit_of_mem_decimal hc
  refine ⟨Text.isBlank_of_isDigit digit, ?_⟩
  rintro rfl
  cases digit

/-- A written number stands in a field as it is. -/
theorem isField_chars (v : Binary64) : IsField v.chars := by
  intro c hc
  rcases Binary64.mem_chars hc with digit | mark
  · refine ⟨Text.isBlank_of_isDigit digit, ?_⟩
    rintro rfl
    cases digit
  · have solid : (Binary64.numeralMarks.all fun d => !Text.isBlank d && d != ',') = true := rfl
    simpa using List.all_eq_true.1 solid c mark

/-- What a row is written as stands in its fields as it is. -/
theorem isField_of_mem_fields {r : LatencyRow} {field : List Char} (h : field ∈ r.fields) :
    IsField field := by
  simp only [LatencyRow.fields, List.mem_cons, List.not_mem_nil, or_false] at h
  rcases h with rfl | rfl | rfl
  · exact isField_decimal _
  · exact isField_chars _
  · exact isField_chars _

/-- Nothing in a written row is blank, the end of the line included. -/
theorem isBlank_of_mem_chars {r : LatencyRow} {c : Char} (h : c ∈ r.chars) :
    Text.isBlank c = false := by
  unfold LatencyRow.chars at h
  simp only [List.mem_append, List.mem_cons] at h
  rcases h with h | rfl | h | rfl | h
  · exact (isField_decimal _ c h).1
  · rfl
  · exact (isField_chars _ c h).1
  · rfl
  · exact (isField_chars _ c h).1

/-- A written row has its fields between commas. -/
theorem split_chars (r : LatencyRow) : Text.split ',' r.chars = r.fields := by
  have noComma : ∀ field, IsField field → ',' ∉ field := fun field h hc => (h ',' hc).2 rfl
  unfold LatencyRow.chars LatencyRow.fields
  rw [Text.split_append (noComma _ (isField_decimal _)),
    Text.split_append (noComma _ (isField_chars _)),
    Text.split_of_not_mem (noComma _ (isField_chars _))]

/-! ## The records of a written table -/

/-- A written row is a record of its fields. -/
theorem record?_chars (number : Nat) (r : LatencyRow) :
    record? number r.chars = some ⟨number, r.fields⟩ := by
  have trimmed : Text.trim r.chars = r.chars := Text.trim_eq_self fun _ => isBlank_of_mem_chars
  have filled : r.chars.isEmpty = false := by
    unfold LatencyRow.chars
    simp
  have same : r.fields.map Text.trim = r.fields := by
    calc r.fields.map Text.trim = r.fields.map id :=
          List.map_congr_left fun field hfield =>
            Text.trim_eq_self fun c hc => (isField_of_mem_fields hfield c hc).1
      _ = r.fields := List.map_id _
  unfold record?
  dsimp only
  rw [trimmed, split_chars, same, filled]
  rfl

/-- The records of written rows, numbered on from the given number. -/
def writtenRecords (number : Nat) (rows : List LatencyRow) : List Record :=
  (rows.zipIdx number).map fun entry => ⟨entry.2, entry.1.fields⟩

/-- Written rows, each ended by a line feed, are their records and nothing behind them. -/
theorem recordsFrom_written (number : Nat) (rows : List LatencyRow) :
    recordsFrom number (rows.map LatencyRow.chars ++ [[]]) = writtenRecords number rows := by
  induction rows generalizing number with
  | nil => rfl
  | cons r rest ih =>
    rw [List.map_cons, List.cons_append, recordsFrom, record?_chars, ih]
    rfl

/-- The lines of a written table. -/
def writtenLines (withHeader : Bool) (rows : List LatencyRow) : List (List Char) :=
  (if withHeader then [LatencyRow.header.toList] else []) ++ rows.map LatencyRow.chars

/-- A written table is its lines, each with a line feed behind it. -/
theorem toList_toText (withHeader : Bool) (rows : List LatencyRow) :
    (toText withHeader ⟨rows⟩).toList =
      (writtenLines withHeader rows).flatMap fun line => line ++ ['\n'] := by
  have lines : (String.join (rows.map LatencyRow.line)).toList =
      (rows.map LatencyRow.chars).flatMap fun line => line ++ ['\n'] := by
    rw [String.toList_join, List.flatMap_map, List.flatMap_map]
    simp [LatencyRow.line]
  unfold toText writtenLines
  cases withHeader <;> simp [lines]

/-- No written line holds a line feed. -/
theorem not_mem_writtenLines {withHeader : Bool} {rows : List LatencyRow} {line : List Char}
    (h : line ∈ writtenLines withHeader rows) : '\n' ∉ line := by
  rcases List.mem_append.1 h with head | row
  · cases withHeader
    · cases head
    · obtain rfl := List.mem_singleton.1 head
      decide
  · obtain ⟨r, -, rfl⟩ := List.mem_map.1 row
    intro hc
    have := isBlank_of_mem_chars hc
    revert this
    decide

/-- The size of a written row is a number, so that no row is taken for a header. -/
theorem isHeader_fields (number : Nat) (r : LatencyRow) : isHeader ⟨number, r.fields⟩ = false := by
  obtain ⟨c, rest, cons⟩ := List.exists_cons_of_ne_nil (Text.decimal_ne_nil r.size.toNat)
  have all : ∀ d ∈ c :: rest, d.isDigit = true := fun _ hd =>
    Text.isDigit_of_mem_decimal (n := r.size.toNat) (cons ▸ hd)
  have read : Binary64.ofChars? (c :: rest) = _ :=
    Binary64.ofChars?_signText false rest (all c (by simp))
  rw [Decimal.ofUnsigned?_digits false (by simp) all] at read
  unfold isHeader LatencyRow.fields
  rw [cons]
  dsimp only
  rw [read]
  rfl

/-- The records of data of a written table are those of its rows, whether they stand under a header
or not. -/
theorem dataRecords_toText (withHeader : Bool) (rows : List LatencyRow) :
    dataRecords (toText withHeader ⟨rows⟩).toList =
      writtenRecords (1 + withHeader.toNat) rows := by
  unfold dataRecords records
  rw [toList_toText, Text.split_flatMap_append fun _ => not_mem_writtenLines]
  cases withHeader with
  | true =>
    have head : record? 1 LatencyRow.header.toList =
        some ⟨1, ["size".toList, "random_ns".toList, "sequential_ns".toList]⟩ := by decide
    have other : isHeader ⟨1, ["size".toList, "random_ns".toList, "sequential_ns".toList]⟩ =
        true := by decide
    show dropHeader (recordsFrom 1
      (LatencyRow.header.toList :: (rows.map LatencyRow.chars ++ [[]]))) = _
    rw [recordsFrom, head]
    show dropHeader (_ :: recordsFrom 2 _) = _
    rw [dropHeader, if_pos other, recordsFrom_written]
    rfl
  | false =>
    show dropHeader (recordsFrom 1 (rows.map LatencyRow.chars ++ [[]])) = _
    rw [recordsFrom_written]
    cases rows with
    | nil => rfl
    | cons r rest =>
      show dropHeader (⟨1, r.fields⟩ :: writtenRecords 2 rest) = _
      rw [dropHeader, isHeader_fields]
      rfl

/-! ## Reading the records -/

/-- A latency is read back if it is finite. -/
theorem readLatency?_chars (v : Binary64) :
    readLatency? v.chars = if v.isFinite then some v else none := by
  unfold readLatency?
  cases h : v.isFinite with
  | true =>
    rw [Binary64.ofChars?_chars h]
    simp [h]
  | false =>
    obtain ⟨w, read, infinite⟩ := Binary64.ofChars?_chars_of_not_finite h
    rw [read]
    simp [infinite]

/-- Every size is read back. -/
theorem readSize?_decimal (w : UInt64) : readSize? (Text.decimal w.toNat) = some w := by
  unfold readSize?
  rw [Text.word?_decimal]

/-- A row is read back if it is finite; if not, its first latency that is not finite cannot be
read. -/
theorem readFields_fields (r : LatencyRow) :
    readFields r.fields =
      match r.unreadable? with
      | none => .ok r
      | some v => .error (.badLatency v.chars) := by
  unfold LatencyRow.fields readFields LatencyRow.unreadable?
  dsimp only
  rw [readSize?_decimal, readLatency?_chars, readLatency?_chars]
  cases first : r.random.isFinite <;> cases second : r.sequential.isFinite <;>
    simp [first, second]

/-- The fault of the first written row that is not finite, with its line. -/
def firstFault? (number : Nat) (rows : List LatencyRow) : Option ReadFault :=
  (rows.zipIdx number).findSome? fun entry =>
    entry.1.unreadable?.map fun v => ⟨entry.2, .badLatency v.chars⟩

/-- Rows are read back up to the first one that is not finite. -/
theorem readRows_written (number : Nat) (rows : List LatencyRow) :
    readRows 3 (writtenRecords number rows) =
      match firstFault? number rows with
      | none => .ok rows
      | some fault => .error fault := by
  induction rows generalizing number with
  | nil => rfl
  | cons r rest ih =>
    have row : readRow 3 ⟨number, r.fields⟩ =
        match r.unreadable? with
        | none => .ok r
        | some v => .error ⟨number, .badLatency v.chars⟩ := by
      have three : r.fields.length = 3 := rfl
      unfold readRow
      rw [if_pos three, readFields_fields]
      cases r.unreadable? <;> rfl
    show readRows 3 (⟨number, r.fields⟩ :: writtenRecords (number + 1) rest) = _
    rw [readRows, row, ih]
    unfold firstFault?
    rw [List.zipIdx_cons, List.findSome?_cons]
    -- A row that is not finite ends the reading; else it is up to the rest.
    cases r.unreadable? with
    | none =>
      simp only [Option.map_none]
      cases List.findSome? _ (rest.zipIdx (number + 1)) <;> rfl
    | some v => rfl

/-- So is a table of rows, since all of them have the width of the first one. -/
theorem ofRecords_written (number : Nat) (rows : List LatencyRow) :
    ofRecords (writtenRecords number rows) =
      match firstFault? number rows with
      | none => .ok ⟨rows⟩
      | some fault => .error fault := by
  cases rows with
  | nil => rfl
  | cons r rest =>
    have wide : ¬ r.fields.length < leastColumns := (by decide : ¬ 3 < leastColumns)
    have read := readRows_written number (r :: rest)
    show ofRecords (⟨number, r.fields⟩ :: writtenRecords (number + 1) rest) = _
    have three : r.fields.length = 3 := rfl
    rw [ofRecords, if_neg wide, three]
    change readRows 3 (⟨number, r.fields⟩ :: writtenRecords (number + 1) rest) = _ at read
    rw [read]
    cases firstFault? number (r :: rest) <;> rfl

/-- Finite rows have no fault. -/
theorem firstFault?_eq_none {number : Nat} {rows : List LatencyRow}
    (h : ∀ r ∈ rows, r.IsFinite) : firstFault? number rows = none := by
  unfold firstFault?
  rw [List.findSome?_eq_none_iff]
  intro entry hentry
  have member := List.fst_mem_of_mem_zipIdx hentry
  rw [LatencyRow.unreadable?_eq_none_iff.2 (h entry.1 member)]
  rfl

/-- The first fault of rows is that of the first one that is not finite. -/
theorem firstFault?_append {number : Nat} {before : List LatencyRow} {row : LatencyRow}
    {after : List LatencyRow} {v : Binary64} (h : ∀ r ∈ before, r.IsFinite)
    (bad : row.unreadable? = some v) :
    firstFault? number (before ++ row :: after) =
      some ⟨number + before.length, .badLatency v.chars⟩ := by
  have none : firstFault? number before = none := firstFault?_eq_none h
  unfold firstFault? at none ⊢
  rw [List.zipIdx_append, List.findSome?_append, none, Option.none_or, List.zipIdx_cons,
    List.findSome?_cons, bad]
  rfl

/-- A written table is read back, or the first fault of its rows is found, on its line. -/
theorem result_read_toText (withHeader : Bool) (rows : List LatencyRow) :
    (read (toText withHeader ⟨rows⟩).toList).result =
      match firstFault? (1 + withHeader.toNat) rows with
      | none => .ok ⟨rows⟩
      | some fault => .error fault := by
  rw [result_read, ofChars, dataRecords_toText, ofRecords_written]

/-- A table of finite latencies is read back as it was written. -/
theorem read_toText_of_finite (withHeader : Bool) {rows : List LatencyRow}
    (h : ∀ r ∈ rows, r.IsFinite) :
    (read (toText withHeader ⟨rows⟩).toList).result = .ok ⟨rows⟩ := by
  rw [result_read_toText, firstFault?_eq_none h]

/-- A table of finite latencies that is written, under a header or not, is read back as it is. A
table with another latency is refused, and the fault names the line of the first row that has one
and the first such latency in it. -/
theorem read_toText (withHeader : Bool) (rows : List LatencyRow) :
    ((∀ r ∈ rows, r.IsFinite) →
      (read (toText withHeader ⟨rows⟩).toList).result = .ok ⟨rows⟩) ∧
    (∀ before row after, rows = before ++ row :: after → (∀ r ∈ before, r.IsFinite) →
      ¬ row.IsFinite →
      ∃ v ∈ [row.random, row.sequential], v.isFinite = false ∧
        (read (toText withHeader ⟨rows⟩).toList).result =
          .error ⟨before.length + 1 + withHeader.toNat, .badLatency v.chars⟩) := by
  constructor
  · exact read_toText_of_finite withHeader
  · rintro before row after rfl finite infinite
    obtain ⟨v, bad⟩ : ∃ v, row.unreadable? = some v := by
      rw [← Option.ne_none_iff_exists', ne_eq, LatencyRow.unreadable?_eq_none_iff]
      exact infinite
    refine ⟨v, List.mem_of_find?_eq_some bad, by simpa using List.find?_some bad, ?_⟩
    have line : 1 + withHeader.toNat + before.length = before.length + 1 + withHeader.toNat := by
      omega
    rw [result_read_toText, firstFault?_append finite bad, line]

/-- Two rows under a header, of which the second has an infinite latency: the fault is in the third
line. -/
theorem read_toText_infinite_row :
    (read (toText true ⟨[⟨100, Binary64.ofNat 1, Binary64.zero true⟩,
        ⟨200, .infinity false, Binary64.ofNat 1⟩]⟩).toList).result =
      .error ⟨3, .badLatency ['i', 'n', 'f']⟩ := by
  have finite : (Binary64.ofNat 1).isFinite = true := by decide +kernel
  generalize Binary64.ofNat 1 = one at finite ⊢
  have first : ∀ r ∈ [(⟨100, one, Binary64.zero true⟩ : LatencyRow)], r.IsFinite := by
    intro r member
    obtain rfl := List.mem_singleton.1 member
    exact ⟨finite, rfl⟩
  have second : ¬ LatencyRow.IsFinite ⟨200, .infinity false, one⟩ := by
    rintro ⟨infinite, -⟩
    cases infinite
  obtain ⟨v, member, infinite, result⟩ := (read_toText true _).2 _ _ [] rfl first second
  rcases List.mem_cons.1 member with rfl | other
  · exact result
  · obtain rfl : v = one := List.mem_singleton.1 other
    rw [infinite] at finite
    cases finite

end LatencyTable

end AccessLatency
