import AccessLatency.Proofs.LatencyTable.Dialect
import AccessLatency.Proofs.Text.Lines
import Mathlib.Tactic

/-!
# The line of a fault

Records are read in order up to the first that is wrong. What is before it is read, and what is
behind it is not looked at: `FailsAt` says so of a reader, first of the one for the rows of a known
width, then of those that learn the width from the first row and that leave out a header. A record
has the number of its line, blank lines counted, so `read_fault_local` can say the same of the lines
of a text.
-/

set_option autoImplicit false

namespace AccessLatency

namespace LatencyTable

/-! ## Records and the numbers of their lines -/

/-- A carriage return at the end of a line does not change its record. -/
theorem record?_withoutReturn (number : ℕ) (line : List Char) :
    record? number (Text.withoutReturn line) = record? number line := by
  unfold Text.withoutReturn
  split
  · rename_i returned
    obtain ⟨front, rfl⟩ := List.getLast?_eq_some_iff.1 returned
    have blank : Text.isBlank '\r' = true := rfl
    rw [List.dropLast_concat, record?_eq, record?_eq, fieldsOf_concat blank, List.all_append]
    simp [blank]
  · rfl

/-- The records of the pieces between line feeds are those of the lines: neither the carriage
returns nor an empty piece at the end make a difference. -/
theorem recordsFrom_linesOf (number : ℕ) (pieces : List (List Char)) :
    recordsFrom number (Text.linesOf pieces) = recordsFrom number pieces := by
  fun_induction Text.linesOf pieces generalizing number with
  | case1 => rfl
  | case2 => rfl
  | case3 => rfl
  | case4 piece next rest ih =>
    rw [recordsFrom, record?_withoutReturn, ih]
    rfl

/-- The records of a text are those of its lines. -/
theorem records_eq (s : List Char) : records s = recordsFrom 1 (Text.lines s) :=
  (recordsFrom_linesOf 1 (Text.split '\n' s)).symm

/-- The records of lines go on from one part of them to the next, the numbers with them. -/
theorem recordsFrom_append (number : ℕ) (above below : List (List Char)) :
    recordsFrom number (above ++ below) =
      recordsFrom number above ++ recordsFrom (number + above.length) below := by
  induction above generalizing number with
  | nil => rfl
  | cons line above ih =>
    have next : number + (line :: above).length = number + 1 + above.length := by
      rw [List.length_cons]
      omega
    rw [List.cons_append, recordsFrom, recordsFrom, ih, next]
    cases record? number line <;> rfl

/-- The record of a line has the number of the line. -/
theorem line_of_record? {number : ℕ} {line : List Char} {r : Record}
    (h : record? number line = some r) : r.line = number := by
  rw [record?_eq] at h
  split at h
  · cases h
  · cases h
    rfl

/-- A record among others is that of a line, and those before it are of the lines above. -/
theorem exists_line_of_recordsFrom {number : ℕ} {lines : List (List Char)}
    {before behind : List Record} {r : Record}
    (h : recordsFrom number lines = before ++ r :: behind) :
    ∃ above line below, lines = above ++ line :: below ∧ recordsFrom number above = before ∧
      record? (number + above.length) line = some r := by
  induction lines generalizing number before with
  | nil =>
    have length := congrArg List.length h
    simp [recordsFrom] at length
  | cons line rest ih =>
    rw [recordsFrom] at h
    cases own : record? number line with
    | none =>
      rw [own] at h
      obtain ⟨above, found, below, rfl, front, record⟩ := ih h
      refine ⟨line :: above, found, below, rfl, ?_, ?_⟩
      · rw [recordsFrom, own]
        exact front
      · rwa [List.length_cons, Nat.add_comm above.length, ← Nat.add_assoc]
    | some first =>
      rw [own] at h
      cases before with
      | nil =>
        obtain ⟨rfl, -⟩ := List.cons.inj h
        exact ⟨[], line, rest, rfl, rfl, own⟩
      | cons b before =>
        obtain ⟨rfl, tail⟩ := List.cons.inj h
        obtain ⟨above, found, below, rfl, front, record⟩ := ih tail
        refine ⟨line :: above, found, below, rfl, ?_, ?_⟩
        · rw [recordsFrom, own]
          show first :: recordsFrom (number + 1) above = _
          rw [front]
        · rwa [List.length_cons, Nat.add_comm above.length, ← Nat.add_assoc]

/-! ## The first record that is wrong -/

/-- A reader fails at a record behind others: it reads these, and the fault, which has the line of
the record, does not depend on what follows. -/
structure FailsAt {α : Type} (read : List Record → Except ReadFault α) (before : List Record)
    (r : Record) (fault : ReadFault) : Prop where
  line : fault.line = r.line
  reads : ∃ a, read before = .ok a
  fails : ∀ behind, read (before ++ r :: behind) = .error fault

/-- The fault of a record has the line of the record. -/
theorem line_of_readRow {width : ℕ} {r : Record} {fault : ReadFault}
    (h : readRow width r = .error fault) : fault.line = r.line := by
  unfold readRow at h
  split at h
  · split at h
    · cases h
    · cases h
      rfl
  · cases h
    rfl

/-- If reading rows fails, it fails at one record, behind others that are read. -/
theorem exists_failsAt_readRows {width : ℕ} {records : List Record} {fault : ReadFault}
    (h : readRows width records = .error fault) :
    ∃ before r behind, records = before ++ r :: behind ∧
      FailsAt (readRows width) before r fault := by
  induction records with
  | nil => cases h
  | cons r rest ih =>
    rw [readRows] at h
    cases own : readRow width r with
    | error e =>
      rw [own] at h
      cases h
      refine ⟨[], r, rest, rfl, line_of_readRow own, ⟨[], rfl⟩, fun behind => ?_⟩
      rw [List.nil_append, readRows, own]
    | ok row =>
      rw [own] at h
      cases others : readRows width rest with
      | ok rows =>
        rw [others] at h
        cases h
      | error e =>
        rw [others] at h
        cases h
        obtain ⟨before, wrong, behind, rfl, there⟩ := ih others
        obtain ⟨rows, read⟩ := there.reads
        refine ⟨r :: before, wrong, behind, rfl, there.line, ⟨row :: rows, ?_⟩, fun others => ?_⟩
        · rw [readRows, own, read]
        · rw [List.cons_append, readRows, own, there.fails]

/-- The first record stays the first one, whatever follows another. -/
theorem exists_cons_of_append {before behind rest : List Record} {first r : Record}
    (h : first :: rest = before ++ r :: behind) (others : List Record) :
    ∃ tail, before ++ r :: others = first :: tail := by
  cases before with
  | nil =>
    obtain ⟨rfl, -⟩ := List.cons.inj h
    exact ⟨others, rfl⟩
  | cons b before =>
    obtain ⟨rfl, -⟩ := List.cons.inj h
    exact ⟨before ++ r :: others, rfl⟩

/-- If reading the records of a table fails, it fails at one record; this record may be the first
one, which sets the width. -/
theorem exists_failsAt_ofRecords {records : List Record} {fault : ReadFault}
    (h : ofRecords records = .error fault) :
    ∃ before r behind, records = before ++ r :: behind ∧ FailsAt ofRecords before r fault := by
  cases records with
  | nil => cases h
  | cons first rest =>
    rw [ofRecords] at h
    by_cases narrow : first.fields.length < leastColumns
    · rw [if_pos narrow] at h
      cases h
      refine ⟨[], first, rest, rfl, rfl, ⟨_, rfl⟩, fun behind => ?_⟩
      rw [List.nil_append, ofRecords, if_pos narrow]
    · rw [if_neg narrow] at h
      cases read : readRows first.fields.length (first :: rest) with
      | ok rows =>
        rw [read] at h
        cases h
      | error e =>
        rw [read] at h
        cases h
        obtain ⟨before, r, behind, split, there⟩ := exists_failsAt_readRows read
        -- The width is that of the first record, which stays first with anything behind the fault.
        refine ⟨before, r, behind, split, there.line, ?_, fun others => ?_⟩
        · cases before with
          | nil => exact ⟨_, rfl⟩
          | cons b before =>
            obtain ⟨rfl, -⟩ := List.cons.inj split
            obtain ⟨rows, front⟩ := there.reads
            refine ⟨⟨rows⟩, ?_⟩
            rw [ofRecords, if_neg narrow, front]
        · obtain ⟨tail, same⟩ := exists_cons_of_append split others
          have fails := there.fails others
          rw [same] at fails ⊢
          rw [ofRecords, if_neg narrow, fails]

/-- A header is left out before what is read, or is not there. -/
theorem exists_of_dropHeader {records before behind : List Record} {r : Record}
    (h : dropHeader records = before ++ r :: behind) :
    ∃ front, records = front ++ r :: behind ∧ dropHeader front = before ∧
      ∀ others, dropHeader (front ++ r :: others) = before ++ r :: others := by
  cases records with
  | nil =>
    have length := congrArg List.length h
    simp [dropHeader] at length
  | cons first rest =>
    rw [dropHeader] at h
    by_cases header : isHeader first
    · rw [if_pos header] at h
      subst h
      refine ⟨first :: before, rfl, ?_, fun others => ?_⟩
      · rw [dropHeader, if_pos header]
      · rw [List.cons_append, dropHeader, if_pos header]
    · rw [if_neg header] at h
      refine ⟨before, h, ?_, fun others => ?_⟩
      · cases before with
        | nil => rfl
        | cons b before =>
          obtain ⟨rfl, -⟩ := List.cons.inj h
          rw [dropHeader, if_neg header]
      · obtain ⟨tail, same⟩ := exists_cons_of_append h others
        rw [same, dropHeader, if_neg header]

/-- A header in front of the records does not change that. -/
theorem exists_failsAt_dropHeader {records : List Record} {fault : ReadFault}
    (h : ofRecords (dropHeader records) = .error fault) :
    ∃ before r behind, records = before ++ r :: behind ∧
      FailsAt (fun records => ofRecords (dropHeader records)) before r fault := by
  obtain ⟨data, r, behind, split, there⟩ := exists_failsAt_ofRecords h
  obtain ⟨front, whole, cut, same⟩ := exists_of_dropHeader split
  refine ⟨front, r, behind, whole, there.line, ?_, fun others => ?_⟩
  · rw [cut]
    exact there.reads
  · rw [same]
    exact there.fails others

/-! ## The first line that is wrong -/

/-- A fault names a line of the text, counted from one with blank lines and the header. The text of
the lines above it is read, and every text that begins with the same lines as far as this one has
the same fault. -/
theorem read_fault_local {s : List Char} {k : ℕ} {fault : RowFault}
    (h : (read s).result = .error ⟨k, fault⟩) :
    (1 ≤ k ∧ k ≤ (Text.lines s).length) ∧
      (∃ t, (read (Text.firstLines (k - 1) s)).result = .ok t) ∧
      ∀ other, (Text.lines other).take k = (Text.lines s).take k →
        (read other).result = .error ⟨k, fault⟩ := by
  have reads (text : List Char) :
      (read text).result = ofRecords (dropHeader (recordsFrom 1 (Text.lines text))) := by
    rw [result_read, ofChars, dataRecords, records_eq]
  rw [reads] at h
  obtain ⟨before, r, behind, split, there⟩ := exists_failsAt_dropHeader h
  obtain ⟨above, line, below, lines, front, record⟩ := exists_line_of_recordsFrom split
  have number : k = above.length + 1 := by
    rw [show k = r.line from there.line, line_of_record? record, Nat.add_comm]
  have head : (above ++ [line]).length = k := by
    rw [List.length_append, List.length_singleton, number]
  have beginning : (Text.lines s).take k = above ++ [line] := by
    rw [lines, List.append_cons]
    exact List.take_left' head
  refine ⟨?_, ?_, fun other same => ?_⟩
  · rw [lines, List.length_append, List.length_cons]
    omega
  · have upper : (Text.lines s).take (k - 1) = above := by
      rw [lines, number, Nat.add_sub_cancel]
      exact List.take_left' rfl
    rw [reads, Text.lines_firstLines, upper, front]
    exact there.reads
  · have whole : Text.lines other = above ++ line :: (Text.lines other).drop k := by
      rw [List.append_cons, ← beginning, ← same, List.take_append_drop]
    rw [reads, whole, recordsFrom_append, front, recordsFrom, record]
    exact there.fails _

/-- A header, a blank line, a row, and a row whose first latency is no number; behind it a line that
is not looked at. -/
def unreadRow : List Char := "size,random,sequential\n \n100,1,2\r\n200,fast,2\n300".toList

/-- The fault has the line of the row that is not read, and what is behind that line does not
matter. -/
theorem read_fault_local_unreadRow :
    (read unreadRow).result = .error ⟨4, .badLatency "fast".toList⟩ ∧
      (1 ≤ 4 ∧ 4 ≤ (Text.lines unreadRow).length) ∧
      (∃ t, (read (Text.firstLines 3 unreadRow)).result = .ok t) ∧
      ∀ other, (Text.lines other).take 4 = (Text.lines unreadRow).take 4 →
        (read other).result = .error ⟨4, .badLatency "fast".toList⟩ := by
  have fails : (read unreadRow).result = .error ⟨4, .badLatency "fast".toList⟩ := by decide +kernel
  exact ⟨fails, read_fault_local fails⟩

end LatencyTable

end AccessLatency
