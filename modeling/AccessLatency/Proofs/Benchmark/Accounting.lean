import AccessLatency.Proofs.Benchmark.Run
import Mathlib.Tactic

/-!
# What a run hands over until it ends

A run is cut short by the first thing that goes wrong: a size whose memory is not granted, or a row
that is refused. Until then every size has its row handed over once, in order, and after it there is
none. Said for sinks, the state of a sink does not show a row that is refused; so here rows go to a
`Receiver`, which goes on with another state even if it refuses a row, and which may be made to keep
the rows it is handed. Nor is the machine the same all the time: every size finds a host of its own.
A run to a sink on a machine that stays the same is a special case, `run_eq_report`.

What goes wrong at a size is `faultAt?`, in the state that the receiver is left in by the rows of all
sizes before. The two ways in which a run goes over its sizes are `reportOver_of_no_fault` and
`reportOver_of_first_fault`.
-/

set_option autoImplicit false

namespace AccessLatency

namespace Host

/-- Why a machine does not grant the memory of an array of a given size, if it does not. -/
def refusal? (host : Host) (huge : Bool) (size : UInt64) : Option Mapping.Fault :=
  match Mapping.allocate (host.grants huge) (size / wordSize) wordSize.toNat huge with
  | .error why => some why
  | .ok _ => none

/-- A size of a word or more gives its row, unless its memory is not granted. -/
theorem measure_of_word {host : Host} {huge : Bool} {size : UInt64} (word : wordSize ≤ size) :
    host.measure size huge =
      match host.refusal? huge size with
      | some why => .error (.allocation size why)
      | none => .ok (some (host.row size)) := by
  unfold measure refusal?
  dsimp only
  rw [if_neg (words_ne_zero word)]
  cases Mapping.allocate (host.grants huge) (size / wordSize) wordSize.toNat huge with
  | error why => rfl
  | ok bytes => rfl

end Host

/-- What rows are handed to: from a state and a row, the state that it goes on with, and whether it
takes the row. -/
abbrev Receiver (σ : Type) := σ → LatencyRow → σ × Except BenchmarkFault Unit

namespace Receiver

variable {σ : Type}

/-- A sink that refuses a row is left as it was. -/
def ofSink (sink : σ → LatencyRow → Except SinkFault σ) : Receiver σ := fun state row =>
  match sink state row with
  | .error why => (state, .error (.sink why))
  | .ok next => (next, .ok ())

/-- The receiver that keeps the rows it is handed, and leaves it to another to refuse them. -/
def recorded (receive : Receiver σ) : Receiver (σ × List LatencyRow) := fun kept row =>
  (((receive kept.1 row).1, kept.2 ++ [row]), (receive kept.1 row).2)

/-- The state after rows, taken or refused. -/
def after (receive : Receiver σ) (state : σ) (rows : List LatencyRow) : σ :=
  rows.foldl (fun s row => (receive s row).1) state

/-- A receiver that keeps its rows goes through the states that it goes through without keeping
them, and has kept all rows it was handed. -/
theorem after_recorded (receive : Receiver σ) (state : σ) (kept rows : List LatencyRow) :
    receive.recorded.after (state, kept) rows = (receive.after state rows, kept ++ rows) := by
  induction rows generalizing state kept with
  | nil => simp [after]
  | cons row rest ih =>
    have next := ih (receive state row).1 (kept ++ [row])
    rw [List.append_assoc] at next
    exact next

end Receiver

namespace BenchmarkPlan

variable {σ : Type}

/-- Measure arrays of the given sizes, each on a host of its own, handing the rows to a receiver. -/
def reportOver (hosts : UInt64 → Host) (huge : Bool) (receive : Receiver σ) (state : σ)
    (count : Nat) : List UInt64 → σ × Except BenchmarkFault Nat
  | [] => (state, .ok count)
  | size :: rest =>
    match (hosts size).measure size huge with
    | .error fault => (state, .error fault)
    | .ok none => reportOver hosts huge receive state count rest
    | .ok (some row) =>
      match receive state row with
      | (next, .error fault) => (next, .error fault)
      | (next, .ok ()) => reportOver hosts huge receive next (count + 1) rest

/-- Run a benchmark on a machine that changes from one size to the next. -/
def report (p : BenchmarkPlan) (hosts : UInt64 → Host) (receive : Receiver σ) (state : σ) :
    σ × Except BenchmarkFault Nat :=
  reportOver hosts p.hugePages receive state 0 p.sizes

/-- Handing rows to a sink is handing them to the receiver that a sink makes. -/
theorem runOver_eq_reportOver (host : Host) (huge : Bool)
    (sink : σ → LatencyRow → Except SinkFault σ) (state : σ) (count : Nat) (sizes : List UInt64) :
    runOver host huge sink state count sizes =
      reportOver (fun _ => host) huge (Receiver.ofSink sink) state count sizes := by
  induction sizes generalizing state count with
  | nil => rfl
  | cons size rest ih =>
    rw [runOver, reportOver]
    cases host.measure size huge with
    | error fault => rfl
    | ok measured =>
      cases measured with
      | none => exact ih state count
      | some row =>
        dsimp only
        unfold Receiver.ofSink
        cases sink state row with
        | error why => rfl
        | ok next => exact ih next (count + 1)

/-- A run with a sink on a machine that stays the same is a run with a receiver on a machine that
changes. -/
theorem run_eq_report (p : BenchmarkPlan) (host : Host)
    (sink : σ → LatencyRow → Except SinkFault σ) (state : σ) :
    p.run host sink state = p.report (fun _ => host) (Receiver.ofSink sink) state := by
  unfold run
  rw [runFrom_eq_runOver, runOver_eq_reportOver]
  rfl

/-! ## Faults -/

variable {hosts : UInt64 → Host} {huge : Bool} {receive : Receiver σ} {state : σ}
  {sizes : List UInt64}

/-- The rows of sizes, each measured on its own host. -/
def rowsOf (hosts : UInt64 → Host) (sizes : List UInt64) : List LatencyRow :=
  sizes.map fun size => (hosts size).row size

/-- What goes wrong at a size, if anything: its memory is not granted, or its row is refused. -/
def faultOf? (hosts : UInt64 → Host) (huge : Bool) (receive : Receiver σ) (state : σ)
    (size : UInt64) : Option BenchmarkFault :=
  match (hosts size).refusal? huge size with
  | some why => some (.allocation size why)
  | none =>
    match (receive state ((hosts size).row size)).2 with
    | .error fault => some fault
    | .ok () => none

/-- What goes wrong at the size of a given index, after the rows of all sizes before it. -/
def faultAt? (hosts : UInt64 → Host) (huge : Bool) (receive : Receiver σ) (state : σ)
    (sizes : List UInt64) (k : Nat) : Option BenchmarkFault :=
  sizes[k]?.bind fun size =>
    faultOf? hosts huge receive (receive.after state (rowsOf hosts (sizes.take k))) size

/-- The number of sizes up to one with a fault that have their rows handed over: the last of them is
its own if its memory is granted. -/
def handedUpTo (hosts : UInt64 → Host) (huge : Bool) (sizes : List UInt64) (k : Nat) : Nat :=
  if sizes[k]?.all fun size => ((hosts size).refusal? huge size).isSome then k else k + 1

/-- The first thing that goes wrong at the sizes. -/
def FirstFault (hosts : UInt64 → Host) (huge : Bool) (receive : Receiver σ) (state : σ)
    (sizes : List UInt64) (k : Nat) (fault : BenchmarkFault) : Prop :=
  faultAt? hosts huge receive state sizes k = some fault ∧
    ∀ j < k, faultAt? hosts huge receive state sizes j = none

/-- A size in front adds one row to those that are handed over before a fault at a later size. -/
theorem handedUpTo_succ (size : UInt64) (rest : List UInt64) (k : Nat) :
    handedUpTo hosts huge (size :: rest) (k + 1) = handedUpTo hosts huge rest k + 1 := by
  unfold handedUpTo
  rw [List.getElem?_cons_succ]
  split <;> rfl

/-- A receiver has the same faults whether the rows are kept or not. -/
theorem faultAt?_recorded (kept : List LatencyRow) (k : Nat) :
    faultAt? hosts huge receive.recorded (state, kept) sizes k =
      faultAt? hosts huge receive state sizes k := by
  unfold faultAt?
  rw [Receiver.after_recorded]
  rfl

/-- If something goes wrong at some size, something goes wrong first. -/
theorem exists_firstFault (h : ¬ ∀ k, faultAt? hosts huge receive state sizes k = none) :
    ∃ k fault, FirstFault hosts huge receive state sizes k fault := by
  classical
  have dirty : ∃ k, faultAt? hosts huge receive state sizes k ≠ none := not_forall.1 h
  obtain ⟨fault, found⟩ := Option.ne_none_iff_exists'.1 (Nat.find_spec dirty)
  refine ⟨Nat.find dirty, fault, found, ?_⟩
  intro j before
  exact not_not.1 (Nat.find_min dirty before)

/-- What goes wrong first is one fault at one size. -/
theorem FirstFault.unique {k l : Nat} {fault other : BenchmarkFault}
    (h : FirstFault hosts huge receive state sizes k fault)
    (h' : FirstFault hosts huge receive state sizes l other) : k = l ∧ fault = other := by
  obtain ⟨found, before⟩ := h
  obtain ⟨found', before'⟩ := h'
  rcases Nat.lt_trichotomy k l with less | rfl | less
  · rw [before' k less] at found
    cases found
  · rw [found] at found'
    exact ⟨rfl, Option.some.inj found'⟩
  · rw [before l less] at found'
    cases found'

/-! ## Runs -/

/-- At the first size of a run there is a fault, which ends it, or its row is handed over and the
run goes on with the rest. -/
theorem reportOver_cons {size : UInt64} (word : Host.wordSize ≤ size) (count : Nat)
    (rest : List UInt64) :
    reportOver hosts huge receive state count (size :: rest) =
      match faultOf? hosts huge receive state size with
      | some fault =>
        (if ((hosts size).refusal? huge size).isSome then state
          else (receive state ((hosts size).row size)).1, .error fault)
      | none =>
        reportOver hosts huge receive (receive state ((hosts size).row size)).1 (count + 1) rest := by
  unfold faultOf?
  rw [reportOver, Host.measure_of_word word]
  cases (hosts size).refusal? huge size with
  | some why => rfl
  | none =>
    dsimp only
    cases receive state ((hosts size).row size) with
    | mk next answer =>
      cases answer with
      | error fault => rfl
      | ok taken => rfl

/-- If nothing goes wrong, the rows of all sizes are handed over, and their number is returned. -/
theorem reportOver_of_no_fault (words : ∀ size ∈ sizes, Host.wordSize ≤ size)
    (clean : ∀ k, faultAt? hosts huge receive state sizes k = none) (count : Nat) :
    reportOver hosts huge receive state count sizes =
      (receive.after state (rowsOf hosts sizes), .ok (count + sizes.length)) := by
  induction sizes generalizing state count with
  | nil => rfl
  | cons size rest ih =>
    have here : faultOf? hosts huge receive state size = none := clean 0
    have later : ∀ k, faultAt? hosts huge receive (receive state ((hosts size).row size)).1 rest k =
        none := fun k => clean (k + 1)
    rw [reportOver_cons (words size (by simp)), here]
    dsimp only
    rw [ih (fun other member => words other (List.mem_cons_of_mem size member)) later,
      List.length_cons, Nat.add_right_comm, Nat.add_assoc]
    rfl

/-- If something goes wrong, the first such thing ends the run. -/
theorem reportOver_of_first_fault {k : Nat} {fault : BenchmarkFault}
    (words : ∀ size ∈ sizes, Host.wordSize ≤ size)
    (first : FirstFault hosts huge receive state sizes k fault) (count : Nat) :
    reportOver hosts huge receive state count sizes =
      (receive.after state (rowsOf hosts (sizes.take (handedUpTo hosts huge sizes k))),
        .error fault) := by
  induction sizes generalizing state count k with
  | nil => cases first.1
  | cons size rest ih =>
    obtain ⟨found, earlier⟩ := first
    cases k with
    | zero =>
      have here : faultOf? hosts huge receive state size = some fault := found
      rw [reportOver_cons (words size (by simp)), here]
      dsimp only
      unfold handedUpTo
      rw [List.getElem?_cons_zero, Option.all_some]
      split <;> rfl
    | succ k =>
      have here : faultOf? hosts huge receive state size = none := earlier 0 (Nat.succ_pos k)
      have first : FirstFault hosts huge receive (receive state ((hosts size).row size)).1 rest k
          fault := ⟨found, fun j before => earlier (j + 1) (Nat.succ_lt_succ before)⟩
      rw [reportOver_cons (words size (by simp)), here]
      dsimp only
      rw [ih (fun other member => words other (List.mem_cons_of_mem size member)) first,
        handedUpTo_succ]
      rfl

/-- How the rows that a run hands over and the way it ends go with the sizes. -/
structure Accounts (hosts : UInt64 → Host) (huge : Bool) (receive : Receiver σ) (state : σ)
    (sizes : List UInt64) (handed : List LatencyRow) (ending : Except BenchmarkFault Nat) :
    Prop where
  success : ∀ n, ending = .ok n ↔
    (∀ k, faultAt? hosts huge receive state sizes k = none) ∧ n = sizes.length
  failure : ∀ fault, ending = .error fault ↔
    ∃ k, FirstFault hosts huge receive state sizes k fault
  handedAll : (∀ k, faultAt? hosts huge receive state sizes k = none) → handed = rowsOf hosts sizes
  handedFirst : ∀ k fault, FirstFault hosts huge receive state sizes k fault →
    handed = rowsOf hosts (sizes.take (handedUpTo hosts huge sizes k))

/-- If nothing goes wrong, all rows are handed over, and as many are counted. -/
theorem accounts_of_no_fault (clean : ∀ k, faultAt? hosts huge receive state sizes k = none) :
    Accounts hosts huge receive state sizes (rowsOf hosts sizes) (.ok sizes.length) := by
  have no : ∀ k fault, ¬ FirstFault hosts huge receive state sizes k fault := by
    rintro k fault ⟨found, -⟩
    rw [clean k] at found
    cases found
  constructor
  · intro n
    constructor
    · rintro ⟨⟩
      exact ⟨clean, rfl⟩
    · rintro ⟨-, rfl⟩
      rfl
  · intro fault
    constructor
    · intro other
      cases other
    · rintro ⟨k, first⟩
      exact absurd first (no k fault)
  · intro _
    rfl
  · intro k fault first
    exact absurd first (no k fault)

/-- If something goes wrong, the rows of the sizes before it are handed over, and its own row if it
is the receiver that refuses it. -/
theorem accounts_of_first_fault {k : Nat} {fault : BenchmarkFault}
    (first : FirstFault hosts huge receive state sizes k fault) :
    Accounts hosts huge receive state sizes
      (rowsOf hosts (sizes.take (handedUpTo hosts huge sizes k))) (.error fault) := by
  have dirty : ¬ ∀ k, faultAt? hosts huge receive state sizes k = none := by
    intro clean
    have found := first.1
    rw [clean k] at found
    cases found
  constructor
  · intro n
    constructor
    · intro other
      cases other
    · rintro ⟨clean, -⟩
      exact absurd clean dirty
  · intro other
    constructor
    · rintro ⟨⟩
      exact ⟨k, first⟩
    · rintro ⟨l, again⟩
      rw [(first.unique again).2]
  · intro clean
    exact absurd clean dirty
  · intro l other again
    rw [(first.unique again).1]

/-- A run hands over the rows of the sizes up to the first thing that goes wrong, and ends with it;
if nothing goes wrong, it hands over the rows of all sizes, and ends with their number. -/
theorem exists_account (p : BenchmarkPlan) (hosts : UInt64 → Host) (receive : Receiver σ)
    (state : σ) :
    ∃ handed ending,
      p.report hosts receive.recorded (state, []) = ((receive.after state handed, handed), ending) ∧
        p.report hosts receive state = (receive.after state handed, ending) ∧
        Accounts hosts p.hugePages receive state p.sizes handed ending := by
  have words : ∀ size ∈ p.sizes, Host.wordSize ≤ size := fun _ member => wordSize_le member
  unfold report
  by_cases clean : ∀ k, faultAt? hosts p.hugePages receive state p.sizes k = none
  · refine ⟨rowsOf hosts p.sizes, .ok p.sizes.length, ?_, ?_, accounts_of_no_fault clean⟩
    · rw [reportOver_of_no_fault words fun k => (faultAt?_recorded [] k).trans (clean k),
        Receiver.after_recorded, List.nil_append, Nat.zero_add]
    · rw [reportOver_of_no_fault words clean, Nat.zero_add]
  · obtain ⟨k, fault, first⟩ := exists_firstFault clean
    have recorded : FirstFault hosts p.hugePages receive.recorded (state, []) p.sizes k fault :=
      ⟨(faultAt?_recorded [] k).trans first.1,
        fun j before => (faultAt?_recorded [] j).trans (first.2 j before)⟩
    refine ⟨rowsOf hosts (p.sizes.take (handedUpTo hosts p.hugePages p.sizes k)), .error fault, ?_,
      ?_, accounts_of_first_fault first⟩
    · rw [reportOver_of_first_fault words recorded, Receiver.after_recorded, List.nil_append]
    · rw [reportOver_of_first_fault words first]

end BenchmarkPlan

end AccessLatency
