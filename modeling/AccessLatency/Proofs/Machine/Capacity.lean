import AccessLatency.Program.Caches
import AccessLatency.Proofs.Machine.Levels
import Mathlib.Tactic

/-!
# The capacities of the caches that a processor describes

An answer of the processor has the sets of a cache in one register, and in another one the ways, the
partitions and the bytes of a line, in ten, ten and twelve bits; each of these numbers is one more
than what is held. So a set has `2 ^ 32` bytes at most. Sets are counted in a register and are one
fewer at most, and it is this one that keeps the capacity of every cache a word,
`Describes.product_le`. So nothing overflows on the way from the answers to the levels and to the
listing, `capacities_exact`, but the count of the sets itself: where one answer has too many of them,
no cache can be told at all, `caches_eq_error`.
-/

set_option autoImplicit false

namespace AccessLatency

namespace Registers

/-- What stands in the register of the sets, which holds one less than their number, if a register
cannot count them. -/
def tooManySets : UInt32 := 0xFFFFFFFF

/-- The answers that are read as caches: those in front of the first that names no kind of cache. -/
def described (answers : List Registers) : List Registers :=
  answers.takeWhile fun r => r.kind?.isSome

/-- A cache has the kind, the level and the numbers that an answer gives, all of them exactly. -/
structure Describes (r : Registers) (c : CacheGeometry) : Prop where
  kind : r.kind? = some c.kind
  level : c.level.toNat = bits r.eax 5 3
  lineSize : c.lineSize.toNat = bits r.ebx 0 12 + 1
  partitions : c.partitions.toNat = bits r.ebx 12 10 + 1
  ways : c.ways.toNat = bits r.ebx 22 10 + 1
  sets : c.sets.toNat = r.ecx.toNat + 1

variable {r : Registers} {c : CacheGeometry} {answers : List Registers}

/-- Some bits of a register are a number below the power of two of their width. -/
theorem bits_lt (register : UInt32) (low width : Nat) : bits register low width < 2 ^ width :=
  Nat.mod_lt _ (Nat.two_pow_pos width)

/-- One more than some bits of a register is still a word. -/
theorem toNat_bitsPlusOne (register : UInt32) (low : Nat) {width : Nat} (h : width < 64) :
    (bitsPlusOne register low width).toNat = bits register low width + 1 := by
  have inside := bits_lt register low width
  have room : 2 ^ width < 2 ^ 64 := Nat.pow_lt_pow_right Nat.one_lt_two h
  have small : bits register low width + 1 < 2 ^ 64 := by omega
  exact UInt64.toNat_ofNat_of_lt small

/-- One more than the number in a register fits the register, unless all its bits are set. -/
theorem toNat_of_sets {register : UInt32} (few : register ≠ tooManySets) :
    register.toNat + 1 < 2 ^ 32 := by
  have top := UInt32.toNat_lt register
  have other : register.toNat ≠ tooManySets.toNat := fun same => few (UInt32.toNat_inj.1 same)
  have most : tooManySets.toNat = 2 ^ 32 - 1 := rfl
  omega

/-- An answer that names a kind of cache describes one, unless its sets are too many. -/
theorem exists_cacheOfKind {kind : CacheKind} (named : r.kind? = some kind)
    (few : r.ecx ≠ tooManySets) : ∃ c, r.cacheOfKind kind = .ok c ∧ r.Describes c := by
  have counted := toNat_of_sets few
  have word : r.ecx.toNat + 1 < 2 ^ 64 := by omega
  have level : bits r.eax 5 3 < 2 ^ 8 := (bits_lt r.eax 5 3).trans (by decide)
  unfold cacheOfKind sets
  rw [if_pos counted]
  refine ⟨_, rfl, ⟨named, ?_, ?_, ?_, ?_, ?_⟩⟩
  · exact UInt8.toNat_ofNat_of_lt level
  · exact toNat_bitsPlusOne _ _ (by decide)
  · exact toNat_bitsPlusOne _ _ (by decide)
  · exact toNat_bitsPlusOne _ _ (by decide)
  · exact UInt64.toNat_ofNat_of_lt word

/-- An answer that names a kind of cache describes one, and the answers behind it go on. -/
theorem described_cons {kind : CacheKind} (named : r.kind? = some kind) (rest : List Registers) :
    described (r :: rest) = r :: described rest := by
  unfold described
  rw [List.takeWhile_cons_of_pos (by rw [named]; rfl)]

/-- An answer that names no kind of cache ends the description. -/
theorem described_cons_of_none (unnamed : r.kind? = none) (rest : List Registers) :
    described (r :: rest) = [] := by
  unfold described
  rw [List.takeWhile_cons_of_neg (by rw [unnamed]; simp)]

/-- Answers are read as the caches that they describe. -/
theorem exists_caches (few : ∀ r ∈ described answers, r.ecx ≠ tooManySets) :
    ∃ found, caches answers = .ok found ∧ List.Forall₂ Describes (described answers) found := by
  induction answers with
  | nil => exact ⟨[], rfl, .nil⟩
  | cons r rest ih =>
    rw [caches]
    cases named : r.kind? with
    | none =>
      rw [described_cons_of_none named]
      exact ⟨[], rfl, .nil⟩
    | some kind =>
      rw [described_cons named] at few ⊢
      rw [List.forall_mem_cons] at few
      obtain ⟨first, read, describes⟩ := exists_cacheOfKind named few.1
      obtain ⟨others, reads, rest⟩ := ih few.2
      refine ⟨first :: others, ?_, .cons describes rest⟩
      dsimp only
      rw [read, reads]
      rfl

/-- One answer with too many sets, and none of the caches can be told. -/
theorem caches_eq_error (h : ∃ r ∈ described answers, r.ecx = tooManySets) :
    caches answers = .error .addition := by
  induction answers with
  | nil => simp [described] at h
  | cons r rest ih =>
    rw [caches]
    cases named : r.kind? with
    | none =>
      rw [described_cons_of_none named] at h
      simp at h
    | some kind =>
      rw [described_cons named, List.exists_mem_cons_iff] at h
      dsimp only
      by_cases many : r.ecx = tooManySets
      · unfold cacheOfKind
        rw [many]
        rfl
      · obtain ⟨first, read, -⟩ := exists_cacheOfKind named many
        rw [read, ih (h.resolve_left many)]
        rfl

/-- Ways, partitions and bytes of a line are `2 ^ 32` together at most, and sets are fewer. -/
theorem Describes.product_le (h : r.Describes c) (few : r.ecx ≠ tooManySets) :
    c.ways.toNat * c.partitions.toNat * c.lineSize.toNat * c.sets.toNat ≤ 2 ^ 64 - 2 ^ 32 := by
  have ways : c.ways.toNat ≤ 2 ^ 10 := h.ways.trans_le (bits_lt r.ebx 22 10)
  have partitions : c.partitions.toNat ≤ 2 ^ 10 := h.partitions.trans_le (bits_lt r.ebx 12 10)
  have line : c.lineSize.toNat ≤ 2 ^ 12 := h.lineSize.trans_le (bits_lt r.ebx 0 12)
  have sets : c.sets.toNat ≤ 2 ^ 32 - 1 := h.sets.trans_le (Nat.le_sub_one_of_lt (toNat_of_sets few))
  calc c.ways.toNat * c.partitions.toNat * c.lineSize.toNat * c.sets.toNat
      ≤ 2 ^ 10 * 2 ^ 10 * 2 ^ 12 * (2 ^ 32 - 1) :=
        Nat.mul_le_mul (Nat.mul_le_mul (Nat.mul_le_mul ways partitions) line) sets
    _ = 2 ^ 64 - 2 ^ 32 := by norm_num

/-- A word that is one more than something is not zero. -/
theorem ne_zero_of_toNat {w : UInt64} {n : Nat} (h : w.toNat = n + 1) : w ≠ 0 := by
  rintro rfl
  cases h

/-- A cache that is described has a capacity, unless the number of its sets is out of reach. -/
theorem Describes.hasCapacity (h : r.Describes c) (few : r.ecx ≠ tooManySets) : c.HasCapacity := by
  have line : c.lineSize ≠ 0 := ne_zero_of_toNat h.lineSize
  have sets : c.sets ≠ 0 := ne_zero_of_toNat h.sets
  rw [CacheGeometry.hasCapacity_iff line sets]
  exact (h.product_le few).trans_lt (by norm_num)

/-- So have all caches that are described. -/
theorem hasCapacity_of_describes {found : List CacheGeometry}
    (describes : List.Forall₂ Describes answers found)
    (few : ∀ r ∈ answers, r.ecx ≠ tooManySets) : ∀ c ∈ found, c.HasCapacity := by
  induction describes with
  | nil => simp
  | cons shows _ ih =>
    rw [List.forall_mem_cons] at few ⊢
    exact ⟨shows.hasCapacity few.1, ih few.2⟩

end Registers

namespace Program

/-- A line of a listing tells the capacity of its cache. -/
def Lists (c : CacheGeometry) (line : String) : Prop :=
  ∃ size, c.capacity = .ok size ∧ line = c.description size ++ "\n"

/-- Caches that have capacities are listed line by line. -/
theorem exists_cacheLines {found : List CacheGeometry} (told : ∀ c ∈ found, c.HasCapacity) :
    ∃ lines, cacheLines found = (lines, none) ∧ List.Forall₂ Lists found lines := by
  induction found with
  | nil => exact ⟨[], rfl, .nil⟩
  | cons c rest ih =>
    rw [List.forall_mem_cons] at told
    obtain ⟨size, capacity⟩ := told.1
    obtain ⟨lines, others, lists⟩ := ih told.2
    refine ⟨(c.description size ++ "\n") :: lines, ?_, .cons ⟨size, capacity, rfl⟩ lists⟩
    rw [cacheLines, capacity, others]

/-- The transcript of a listing that gets to its end. -/
def listed (around : Surroundings) (found : List CacheGeometry) (lines : List String)
    (levels : CacheLevels) : Transcript :=
  { status := 0
    output := if found = [] then "" else String.join lines ++ levels.listing
    complaint := if found = [] then some noCaches else none
    log := []
    folders := around.folders }

/-- If all caches are described and told, the program lists them and their levels. -/
theorem caches_eq_listed {around : Surroundings} {found : List CacheGeometry} {lines : List String}
    {levels : CacheLevels} (read : around.cpu.caches = .ok found)
    (told : cacheLines found = (lines, none)) (known : CacheLevels.ofCaches found = .ok levels)
    (arguments : List String) : caches around arguments = listed around found lines levels := by
  unfold caches
  rw [read]
  cases found with
  | nil => rfl
  | cons c rest =>
    dsimp only
    unfold listing
    rw [told, known]
    rfl

/-- As long as no answer that describes a cache has too many sets, a processor's caches are read from
its answers, the capacity of each is the exact product of its numbers, the levels are known, and the
program that lists caches gets to its end with a line for each of them. -/
theorem capacities_exact (around : Surroundings) (arguments : List String)
    (few : ∀ r ∈ Registers.described around.cpu.cacheAnswers, r.ecx ≠ Registers.tooManySets) :
    ∃ found levels lines, around.cpu.caches = .ok found ∧
      List.Forall₂ Registers.Describes (Registers.described around.cpu.cacheAnswers) found ∧
      (∀ c ∈ found, ∃ size, c.capacity = .ok size ∧
        size.toNat = c.ways.toNat * c.partitions.toNat * c.lineSize.toNat * c.sets.toNat) ∧
      around.cpu.levels = .ok levels ∧
      List.Forall₂ Lists found lines ∧
      caches around arguments = listed around found lines levels := by
  obtain ⟨found, read, describes⟩ := Registers.exists_caches few
  have told := Registers.hasCapacity_of_describes describes few
  obtain ⟨lines, written, lists⟩ := exists_cacheLines told
  have known := CacheLevels.ofCaches_eq told
  refine ⟨found, _, lines, read, describes, ?_, ?_, lists, caches_eq_listed read written known _⟩
  · intro c member
    obtain ⟨size, capacity⟩ := told c member
    exact ⟨size, capacity, CacheGeometry.toNat_of_capacity capacity⟩
  · unfold Cpuid.levels Cpuid.caches
    rw [read]
    exact known

/-- A place for a program to run in, with nothing but a processor of one cache. -/
def withCache (answer : Registers) : Surroundings :=
  { folders := ⟨[], []⟩
    cpu := { highestLeaf := 4, cacheParameters := [answer] }
    host := { grants := fun _ _ => false, timing := fun _ _ => ⟨.zero false, .zero false⟩ }
    typesetter := .absent
    logFilter := .standard }

/-- A data cache of the first level that is as large as an answer can tell. -/
def largestCache : Registers := ⟨33, 0xFFFFFFFF, 0xFFFFFFFE, 0⟩

/-- The largest cache that an answer can describe has a capacity, and it is listed. -/
theorem capacities_exact_largest :
    (∀ r ∈ Registers.described (withCache largestCache).cpu.cacheAnswers,
        r.ecx ≠ Registers.tooManySets) ∧
      (withCache largestCache).cpu.levels = .ok { l1 := some 18446744069414584320 } ∧
      (caches (withCache largestCache) []).status = 0 ∧
      (caches (withCache largestCache) []).complaint = none := by
  have answers : Registers.described (withCache largestCache).cpu.cacheAnswers = [largestCache] := by
    decide +kernel
  have few : ∀ r ∈ Registers.described (withCache largestCache).cpu.cacheAnswers,
      r.ecx ≠ Registers.tooManySets := by
    rw [answers]
    decide
  obtain ⟨found, levels, lines, read, describes, -, known, -, transcript⟩ :=
    capacities_exact (withCache largestCache) [] few
  have levels' : (withCache largestCache).cpu.levels =
      .ok { l1 := some 18446744069414584320 } := by
    decide +kernel
  have filled : found ≠ [] := by
    rintro rfl
    rw [answers] at describes
    cases describes
  refine ⟨few, levels', ?_, ?_⟩
  · rw [transcript]
    rfl
  · rw [transcript]
    exact if_neg filled

/-- A data cache of eight ways and lines of 64 bytes, with one set more than a register can count. -/
def uncountedCache : Registers := ⟨33, 29360191, 0xFFFFFFFF, 0⟩

/-- The numbers of the uncounted cache have a product that is a word, and yet neither the cache nor
the levels can be told, and the listing is broken off. -/
theorem caches_uncounted :
    Registers.described (withCache uncountedCache).cpu.cacheAnswers = [uncountedCache] ∧
      (Registers.bits uncountedCache.ebx 22 10 + 1) * (Registers.bits uncountedCache.ebx 12 10 + 1)
          * (Registers.bits uncountedCache.ebx 0 12 + 1) * (uncountedCache.ecx.toNat + 1) = 2 ^ 41 ∧
      (withCache uncountedCache).cpu.caches = .error .addition ∧
      (withCache uncountedCache).cpu.levels = .error .addition ∧
      (caches (withCache uncountedCache) []).status = Transcript.brokenStatus ∧
      (caches (withCache uncountedCache) []).complaint =
        some "\nattempt to add with overflow" := by
  have answers : Registers.described (withCache uncountedCache).cpu.cacheAnswers =
      [uncountedCache] := by
    decide +kernel
  have uncounted : (withCache uncountedCache).cpu.caches = .error .addition := by
    apply Registers.caches_eq_error
    rw [answers]
    exact ⟨uncountedCache, by simp, rfl⟩
  refine ⟨answers, by decide, uncounted, ?_, ?_, ?_⟩
  · unfold Cpuid.levels
    rw [uncounted]
    rfl
  · unfold caches
    rw [uncounted]
    rfl
  · unfold caches
    rw [uncounted]
    rfl

end Program

end AccessLatency
