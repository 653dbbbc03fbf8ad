import AccessLatency.LatencyTable.Csv
import Mathlib.Tactic

/-!
# What the reader of tables does besides reading

The notes and the warning of the reader do not touch its result, which is that of `ofChars`. The
log holds a note about a header, at most, and the warning exactly if the table that is read is out
of order. That no row is followed directly by a smaller one is as much as that the sizes ascend from
first to last, `ascending_iff_pairwise`.
-/

set_option autoImplicit false

namespace AccessLatency

namespace LatencyTable

/-- Noting a header never fails. -/
theorem result_noteHeader (s : List Char) : (noteHeader s).result = .ok () := by
  unfold noteHeader
  split <;> rfl

/-- The note about a header is there for debugging only. -/
theorem level_of_mem_noteHeader {s : List Char} {r : LogRecord} (h : r ∈ (noteHeader s).log) :
    r.level = .debug := by
  unfold noteHeader at h
  split at h
  · obtain rfl := List.mem_singleton.1 h
    rfl
  · cases h

/-- The result of reading is that of reading without a log. -/
theorem result_read (s : List Char) : (read s).result = ofChars s := by
  unfold read
  rw [Outcome.result_bind_ok (result_noteHeader s)]
  cases h : ofChars s with
  | error e => rw [Outcome.result_bind_error (e := e) rfl]
  | ok t =>
    rw [Outcome.result_bind_ok (a := t) rfl]
    cases t.isSorted <;> rfl

/-- A text that is read as a table logs its header, and then the warning about the order if the rows
are out of order. -/
theorem log_read {s : List Char} {t : LatencyTable} (h : ofChars s = .ok t) :
    (read s).log =
      (noteHeader s).log ++ if t.isSorted then [] else [⟨.warn, unsortedWarning⟩] := by
  unfold read
  rw [Outcome.log_bind_ok (result_noteHeader s), h, Outcome.log_bind_ok (a := t) rfl]
  cases t.isSorted <;> rfl

/-- The warning about rows that are out of order is given exactly if they are. -/
theorem unsortedWarning_mem_log_iff {s : List Char} {t : LatencyTable} (h : ofChars s = .ok t) :
    ⟨.warn, unsortedWarning⟩ ∈ (read s).log ↔ t.isSorted = false := by
  rw [log_read h, List.mem_append]
  constructor
  · rintro (note | warning)
    · have := level_of_mem_noteHeader note
      cases this
    · cases sorted : t.isSorted
      · rfl
      · rw [sorted, if_pos rfl] at warning
        cases warning
  · intro unsorted
    right
    rw [unsorted]
    exact List.mem_singleton_self _

/-- Rows none of which is followed directly by a smaller one ascend in size throughout. -/
theorem ascending_iff_pairwise {rows : List LatencyRow} :
    ascending rows = true ↔ (rows.map LatencyRow.size).Pairwise (· ≤ ·) := by
  induction rows with
  | nil => simp [ascending]
  | cons a rest ih =>
    cases rest with
    | nil => simp [ascending]
    | cons b rest =>
      have split : ((a :: b :: rest).map LatencyRow.size).Pairwise (· ≤ ·) ↔
          (∀ size ∈ (b :: rest).map LatencyRow.size, a.size ≤ size) ∧
            ((b :: rest).map LatencyRow.size).Pairwise (· ≤ ·) := List.pairwise_cons
      rw [ascending, Bool.and_eq_true, decide_eq_true_eq, ih, split]
      constructor
      · rintro ⟨first, others⟩
        refine ⟨?_, others⟩
        intro size member
        rcases List.mem_cons.1 member with rfl | later
        · exact first
        · exact UInt64.le_trans first ((List.pairwise_cons.1 others).1 size later)
      · rintro ⟨first, others⟩
        exact ⟨first b.size (by simp), others⟩

end LatencyTable

end AccessLatency
