import AccessLatency.Proofs.Benchmark.ArrayLife
import AccessLatency.Proofs.Benchmark.Run
import Mathlib.Tactic

/-!
# The memory that is asked for

No array is given bytes that it does not fit in, and none keeps any. Either no bytes can be asked for,
and then the system is not asked; or it is asked once, for what the elements take, and the array lives
inside these bytes, `MappedArray.lives_inside`. An array of a given size is measured in this way,
unless the size has no room for a word: it is an array of the whole words that there is room for,
`Host.exists_measuredIn`.
-/

set_option autoImplicit false

namespace AccessLatency

/-- Noting nothing changes nothing. -/
theorem Process.note_nil (p : Process) : p.note [] = p := Process.ext rfl (List.append_nil _)

namespace Host

variable {size : UInt64} {huge : Bool}

/-! ## Sizes without a word -/

/-- A size holds no word exactly if it is below eight bytes. -/
theorem words_eq_zero_iff : size / wordSize = 0 ↔ size.toNat < 8 := by
  rw [← UInt64.toNat_inj, UInt64.toNat_div]
  exact Nat.div_eq_zero_iff_lt (by decide)

/-- A size is left out exactly if it has no room for a word. -/
theorem measure_eq_skip_iff (host : Host) (size : UInt64) (huge : Bool) :
    host.measure size huge = .ok none ↔ size.toNat < 8 := by
  rw [← words_eq_zero_iff]
  unfold measure
  dsimp only
  constructor
  · intro skipped
    by_contra words
    rw [if_neg words] at skipped
    split at skipped <;> cases skipped
  · intro few
    rw [if_pos few]

/-- What measuring an array of a given size asks the system for: nothing if the size has no room for
a word, and otherwise once what the greatest number of whole words in it takes, if that is a word. -/
structure Asks (size : UInt64) (huge : Bool) (events : List MemoryEvent) : Prop where
  skipped : size.toNat < 8 → events = []
  asked : 8 ≤ size.toNat → ∃ needed bytes, IsGreatest {n | 8 ∣ n ∧ n ≤ size.toNat} needed ∧
    Mapping.Takes needed huge bytes ∧
    events.filterMap MemoryEvent.request? = if bytes < 2 ^ 64 then [bytes] else []

/-- A size that is left out asks for nothing. -/
theorem asks_of_skipped (few : size.toNat < 8) : Asks size huge [] :=
  ⟨fun _ => rfl, fun word => absurd few (Nat.not_lt.2 word)⟩

/-- A size of a word or more asks for what its whole words take: they are the greatest multiple of a
word that is no more than the size. -/
theorem asks_of_words (words : size / wordSize ≠ 0) {bytes : Nat} {events : List MemoryEvent}
    (takes : Mapping.Takes ((size / wordSize).toNat * wordSize.toNat) huge bytes)
    (requests : events.filterMap MemoryEvent.request? = if bytes < 2 ^ 64 then [bytes] else []) :
    Asks size huge events := by
  refine ⟨fun few => absurd (words_eq_zero_iff.2 few) words, fun _ => ?_⟩
  refine ⟨_, bytes, ?_, takes, requests⟩
  rw [UInt64.toNat_div]
  exact Mapping.isGreatest_div_mul 8 size.toNat

/-! ## Sizes of a word or more -/

/-- A size whose words cannot be asked for is refused as invalid, whatever the machine grants. -/
theorem measure_of_unrequestable (host : Host) (words : size / wordSize ≠ 0)
    (refused : Mapping.Unrequestable ((size / wordSize).toNat * wordSize.toNat) huge) :
    host.measure size huge = .error (.allocation size .invalid) := by
  unfold measure Mapping.allocate
  dsimp only
  rw [if_neg words, Mapping.request_of_unrequestable refused]

/-- A size whose words can be asked for is measured if the machine grants them, and otherwise
refused for the machine's reason. -/
theorem measure_of_request (host : Host) (words : size / wordSize ≠ 0) {bytes : UInt64}
    (asked : Mapping.request (size / wordSize) wordSize.toNat huge = .ok bytes) :
    host.measure size huge =
      match host.grants huge bytes with
      | .error why => .error (.allocation size why)
      | .ok () => .ok (some (host.row size)) := by
  unfold measure Mapping.allocate
  dsimp only
  rw [if_neg words, asked]
  dsimp only
  cases host.grants huge bytes <;> rfl

/-- Only the first event of a life asks for bytes. -/
theorem requests_of_life (huge : Bool) (bytes : UInt64) (start : Nat)
    {touches : List MemoryEvent} (only : ∀ event ∈ touches, event.request? = none) :
    (MemoryEvent.map huge bytes :: touches ++ [MemoryEvent.unmap start bytes]).filterMap
      MemoryEvent.request? = if bytes.toNat < 2 ^ 64 then [bytes.toNat] else [] := by
  have nothing : touches.filterMap MemoryEvent.request? = [] := List.filterMap_eq_nil_iff.2 only
  rw [if_pos (UInt64.toNat_lt bytes)]
  simp [MemoryEvent.request?, nothing]

/-! ## Measuring in the memory of a process -/

/-- How an array of a given size is measured in the memory of a process: the process is not stopped
and has the memory that it had; it has asked for the bytes of the array; and the measurement is the
machine's. -/
structure MeasuredIn (system : MemorySystem) (timing : AccessPattern → UInt64 → Timing) (p : Process)
    (size : UInt64) (huge : Bool) (uses : List (ArrayUse UInt64)) (events : List MemoryEvent)
    (result : Except BenchmarkFault (Option LatencyRow)) : Prop where
  run : measureIn? system timing p size huge uses = some (p.note events, result)
  asks : Asks size huge events
  agrees : result = (system.host p timing).measure size huge

variable {p : Process}

/-- A size without a word is left out, and the process stays as it is. -/
theorem measuredIn_of_few (few : size.toNat < 8) (system : MemorySystem)
    (timing : AccessPattern → UInt64 → Timing) (uses : List (ArrayUse UInt64)) :
    MeasuredIn system timing p size huge uses [] (.ok none) := by
  refine ⟨?_, asks_of_skipped few, ?_⟩
  · unfold measureIn?
    dsimp only
    rw [if_pos (words_eq_zero_iff.2 few), Process.note_nil]
  · exact ((measure_eq_skip_iff _ size huge).2 few).symm

/-- A size whose words cannot be asked for is refused in a process as it is on a machine. -/
theorem measuredIn_of_unrequestable (words : size / wordSize ≠ 0)
    (refused : Mapping.Unrequestable ((size / wordSize).toNat * wordSize.toNat) huge)
    (system : MemorySystem) (timing : AccessPattern → UInt64 → Timing)
    (uses : List (ArrayUse UInt64)) :
    MeasuredIn system timing p size huge uses [] (.error (.allocation size .invalid)) := by
  refine ⟨?_, ?_, (measure_of_unrequestable _ words refused).symm⟩
  · unfold measureIn?
    dsimp only
    rw [if_neg words, MappedArray.life_of_unrequestable refused, Process.note_nil]
  · -- There is a word, so it is too many of them that cannot be asked for.
    have positive : (size / wordSize).toNat * wordSize.toNat ≠ 0 :=
      Nat.mul_ne_zero (mt (fun zero => UInt64.toNat_inj.1 zero) words) (by decide)
    have many := (Mapping.unrequestable_iff.1 refused).resolve_left positive
    refine asks_of_words words (Mapping.takes_demand _ _) ?_
    rw [if_neg (Nat.not_lt.2 many)]
    rfl

section Requested

variable {bytes : UInt64} {system : MemorySystem} (words : size / wordSize ≠ 0)
  (takes : Mapping.Takes ((size / wordSize).toNat * wordSize.toNat) huge bytes.toNat)
  (asked : Mapping.request (size / wordSize) wordSize.toNat huge = .ok bytes)

include words takes asked

/-- A size whose bytes the system refuses is refused for the system's reason. -/
theorem measuredIn_of_error {why : Mapping.Fault} (answer : system p huge bytes = .error why)
    (timing : AccessPattern → UInt64 → Timing) (uses : List (ArrayUse UInt64)) :
    MeasuredIn system timing p size huge uses [.map huge bytes]
      (.error (.allocation size why)) := by
  refine ⟨?_, asks_of_words words takes ?_, ?_⟩
  · unfold measureIn?
    dsimp only
    rw [if_neg words, MappedArray.life_of_error asked answer]
  · rw [if_pos (UInt64.toNat_lt bytes)]
    rfl
  · rw [measure_of_request _ words asked]
    simp [MemorySystem.host, answer, Except.map]

/-- A size whose bytes the system grants is measured, and the bytes are given back. -/
theorem exists_measuredIn_of_grant {grant : Grant p bytes}
    (answer : system p huge bytes = .ok grant) (timing : AccessPattern → UInt64 → Timing)
    (uses : List (ArrayUse UInt64)) :
    ∃ events, MeasuredIn system timing p size huge uses events
      (.ok (some ((system.host p timing).row size))) := by
  have room : (size / wordSize).toNat * ByteLayout.word.width ≤ bytes.toNat := takes.le
  obtain ⟨touches, lives, only⟩ :=
    MappedArray.exists_life asked room (fun i => UInt64.ofNat i) uses answer
  have silent : ∀ event ∈ touches, event.request? = none := by
    intro event member
    obtain ⟨i, -, rfl⟩ := only event member
    rfl
  have asks := asks_of_words words takes (requests_of_life huge bytes grant.start silent)
  refine ⟨_, ?_, asks, ?_⟩
  · unfold measureIn?
    dsimp only
    rw [if_neg words, lives]
    rfl
  · rw [measure_of_request _ words asked]
    simp [MemorySystem.host, answer, Except.map]

end Requested

/-- Every size is measured in the memory of a process, or refused, without the process being
stopped. -/
theorem exists_measuredIn (system : MemorySystem) (timing : AccessPattern → UInt64 → Timing)
    (p : Process) (size : UInt64) (huge : Bool) (uses : List (ArrayUse UInt64)) :
    ∃ events result, MeasuredIn system timing p size huge uses events result := by
  by_cases few : size.toNat < 8
  · exact ⟨_, _, measuredIn_of_few few system timing uses⟩
  have words : size / wordSize ≠ 0 := mt words_eq_zero_iff.1 few
  by_cases refused : Mapping.Unrequestable ((size / wordSize).toNat * wordSize.toNat) huge
  · exact ⟨_, _, measuredIn_of_unrequestable words refused system timing uses⟩
  obtain ⟨bytes, takes, asked⟩ := Mapping.exists_request refused
  cases answer : system p huge bytes with
  | error why => exact ⟨_, _, measuredIn_of_error words takes asked answer timing uses⟩
  | ok grant =>
    obtain ⟨events, measured⟩ :=
      exists_measuredIn_of_grant words takes asked answer timing uses
    exact ⟨events, _, measured⟩

end Host

/-- If the system does not itself find requests invalid, memory for an array is refused as invalid
exactly if no bytes are needed, or more than a word can count, or on huge pages if no number of
whole pages that they fit on is a word; and then the system is not asked. Otherwise it is asked for
as many bytes as are needed, or on huge pages for the least number of whole pages that they fit on,
and the array lives in these bytes: every element is inside them, nothing else is touched, and as
many are given back.

In particular an array of a given size is measured unless the size is less than a word, and what is
needed then is the greatest number of whole words that is no more than the size. -/
theorem MappedArray.lives_inside {α : Type} (layout : ByteLayout α) (count : UInt64) (huge : Bool)
    (element : Nat → α) :
    (∀ grants, Mapping.NeverInvalid grants →
        (Mapping.create grants count layout.width huge element = .error .invalid ↔
          Mapping.Unrequestable (count.toNat * layout.width) huge)) ∧
      (Mapping.Unrequestable (count.toNat * layout.width) huge →
        ∀ (system : MemorySystem) (p : Process) (uses : List (ArrayUse α)),
          life? system layout p count huge element uses = some (p, .error .invalid)) ∧
      (¬ Mapping.Unrequestable (count.toNat * layout.width) huge →
        ∃ bytes : UInt64, Mapping.Takes (count.toNat * layout.width) huge bytes.toNat ∧
          LivesIn layout count huge element bytes) ∧
      ∀ (size : UInt64) (pages : Bool),
        (∀ host : Host, host.measure size pages = .ok none ↔ size.toNat < 8) ∧
          ∀ (system : MemorySystem) (timing : AccessPattern → UInt64 → Timing) (p : Process)
            (uses : List (ArrayUse UInt64)),
            ∃ events result, Host.MeasuredIn system timing p size pages uses events result := by
  refine ⟨?_, ?_, exists_livesIn layout element, ?_⟩
  · exact fun grants valid => Mapping.create_eq_invalid_iff valid count layout.width huge element
  · exact fun refused system p uses => life_of_unrequestable refused system
  · intro size pages
    refine ⟨fun host => Host.measure_eq_skip_iff host size pages, ?_⟩
    exact fun system timing p uses => Host.exists_measuredIn system timing p size pages uses

/-- On huge pages two words live in one page. As many words as there are eighths of 2 ^ 64 are invalid,
since their bytes are one more than a word can count. -/
theorem MappedArray.lives_inside_wholePage :
    Mapping.NeverInvalid (fun _ => .ok ()) ∧
      Mapping.create (fun _ => .ok ()) 2305843009213693952 8 false (fun i => UInt64.ofNat i) =
        .error .invalid ∧
      ∃ bytes : UInt64, bytes.toNat = 2 ^ 21 ∧
        LivesIn .word 2 true (fun i => UInt64.ofNat i) bytes := by
  have valid : Mapping.NeverInvalid fun _ => .ok () := by
    intro bytes refused
    cases refused
  have ⟨invalid, _, _, _⟩ :=
    lives_inside ByteLayout.word 2305843009213693952 false fun i => UInt64.ofNat i
  have ⟨_, _, lives, _⟩ := lives_inside ByteLayout.word 2 true fun i => UInt64.ofNat i
  have requestable : ¬ Mapping.Unrequestable (2 * 8) true := by
    rw [Mapping.unrequestable_iff]
    decide
  obtain ⟨bytes, takes, livesIn⟩ := lives requestable
  refine ⟨valid, (invalid _ valid).2 (.inr (.inl (by decide))), bytes, ?_, livesIn⟩
  exact Mapping.takes_iff.1 takes

/-- Two words at the address 4096: they are stored, the second is read, and the first is written and
read. Reading a third touches nothing. -/
example :
    (MappedArray.life? (.single 4096) .word ⟨fun _ => none, []⟩ 2 false
        (fun i => UInt64.ofNat (1000 * i))
        [.read 1, .write 0 77, .read 0, .read 2]).map (fun (p, answers) => (p.events, answers)) =
      some
        ([.map false 16, .touch 4096 8, .touch 4104 8, .touch 4104 8, .touch 4096 8, .touch 4096 8,
            .unmap 4096 16],
          .ok [some 1000, some 77, some 77, none]) := by
  rfl

end AccessLatency
