import AccessLatency.Proofs.Json.Decode
import Mathlib.Tactic

/-!
# The levels as the largest of their caches

Where the capacities of all caches are words, the capacity of a level is the largest among those of
the caches that hold data there, `levelCapacity_eq`, and the largest of some sizes depends only on
which sizes they are. So neither the order of the caches counts, nor how often one of them is named,
nor what there is besides; and caches that are put together have the larger capacity of both in each
level. All of this is `ofCaches_largest`.
-/

set_option autoImplicit false

namespace AccessLatency

/-! ## Capacities -/

/-- Every number below `2 ^ 64` is that of a word. -/
theorem exists_word {n : Nat} (h : n < 2 ^ 64) : ∃ w : UInt64, w.toNat = n :=
  ⟨UInt64.ofNat n, UInt64.toNat_ofNat_of_lt h⟩

namespace CacheGeometry

/-- Whether the capacity of a cache is a word. -/
def HasCapacity (c : CacheGeometry) : Prop := ∃ size, c.capacity = .ok size

/-- Whether loads of data at the given level go through a cache. -/
def Serves (c : CacheGeometry) (level : UInt8) : Prop :=
  c.level = level ∧ (c.kind = .data ∨ c.kind = .unified)

variable {c : CacheGeometry} {level : UInt8} {size : UInt64}

/-- A cache serves a level as it is computed exactly if it holds data and is of the level. -/
theorem servesLevel_iff : c.servesLevel level = true ↔ c.Serves level := by
  unfold servesLevel Serves
  rw [Bool.and_eq_true, beq_iff_eq]
  cases c.kind <;> simp [CacheKind.holdsData]

/-- A cache for instructions only, or of another level, does not serve a level. -/
theorem not_serves (h : c.kind = .instruction ∨ c.level ≠ level) : ¬ c.Serves level := by
  rintro ⟨same, holds⟩
  rcases h with instruction | other
  · rw [instruction] at holds
    rcases holds with no | no <;> cases no
  · exact other same

/-- The three products that a capacity is made of are words. -/
theorem capacity_eq_ok_iff :
    c.capacity = .ok size ↔ ∃ perSet : UInt64, perSet.toNat = c.ways.toNat * c.partitions.toNat ∧
      ∃ bytesPerSet : UInt64, bytesPerSet.toNat = perSet.toNat * c.lineSize.toNat ∧
        size.toNat = bytesPerSet.toNat * c.sets.toNat := by
  unfold capacity
  simp only [bind_eq_ok_iff, Word.mul_eq_ok]

/-- A capacity is the exact product of the four numbers. -/
theorem toNat_of_capacity (h : c.capacity = .ok size) :
    size.toNat = c.ways.toNat * c.partitions.toNat * c.lineSize.toNat * c.sets.toNat := by
  obtain ⟨perSet, first, bytesPerSet, second, third⟩ := capacity_eq_ok_iff.1 h
  rw [third, second, first]

/-- A cache that is not empty has a capacity exactly if the product of its sizes is a word. -/
theorem hasCapacity_iff (line : c.lineSize ≠ 0) (sets : c.sets ≠ 0) :
    c.HasCapacity ↔
      c.ways.toNat * c.partitions.toNat * c.lineSize.toNat * c.sets.toNat < 2 ^ 64 := by
  constructor
  · rintro ⟨size, h⟩
    rw [← toNat_of_capacity h]
    exact UInt64.toNat_lt size
  · intro h
    have someLine : 0 < c.lineSize.toNat :=
      Nat.pos_of_ne_zero fun none => line (UInt64.toNat_inj.1 none)
    have someSets : 0 < c.sets.toNat := Nat.pos_of_ne_zero fun none => sets (UInt64.toNat_inj.1 none)
    have second := (Nat.le_mul_of_pos_right _ someSets).trans_lt h
    have first := (Nat.le_mul_of_pos_right _ someLine).trans_lt second
    obtain ⟨size, third⟩ := exists_word h
    obtain ⟨bytesPerSet, second⟩ := exists_word second
    obtain ⟨perSet, first⟩ := exists_word first
    refine ⟨size, capacity_eq_ok_iff.2 ⟨perSet, first, bytesPerSet, ?_, ?_⟩⟩
    · rw [second, first]
    · rw [third, second]

end CacheGeometry

/-! ## The largest of some sizes -/

instance lawfulOrderMax_word : Std.LawfulOrderMax UInt64 where
  max_le_iff a b c := by
    simp only [UInt64.max_def, UInt64.le_iff_toNat_le]
    split <;> omega
  max_eq_or a b := by
    rw [UInt64.max_def]
    split
    · exact Or.inr rfl
    · exact Or.inl rfl

/-- Going over sizes and keeping the larger one gives the maximum. -/
theorem foldl_largerCapacity (sizes : List UInt64) :
    sizes.foldl largerCapacity none = sizes.max? := by
  cases sizes with
  | nil => rfl
  | cons first rest =>
    show rest.foldl largerCapacity (some first) = some (rest.foldl max first)
    induction rest generalizing first with
    | nil => rfl
    | cons next rest ih => exact ih (max first next)

/-- The maximum depends only on which sizes there are. -/
theorem max?_congr {sizes others : List UInt64} (same : ∀ size, size ∈ sizes ↔ size ∈ others) :
    sizes.max? = others.max? := by
  apply Option.ext
  intro size
  simp only [List.max?_eq_some_iff, same]

/-- The maximum of two lists is the larger one of their maxima. -/
theorem max?_append (sizes others : List UInt64) :
    (sizes ++ others).max? = max sizes.max? others.max? := by
  cases sizes with
  | nil => cases others <;> rfl
  | cons first rest =>
    cases others with
    | nil =>
      rw [List.append_nil]
      rfl
    | cons other more =>
      show some ((rest ++ other :: more).foldl max first) =
        some (max (rest.foldl max first) (more.foldl max other))
      rw [List.foldl_append, List.foldl_max]
      rfl

/-! ## The capacity of a level -/

/-- The capacities of the caches that hold data at a level, as far as they are words. -/
def capacitiesAt (caches : List CacheGeometry) (level : UInt8) : List UInt64 :=
  (caches.filter (CacheGeometry.servesLevel level)).filterMap fun c => c.capacity.toOption

variable {caches others : List CacheGeometry} {level : UInt8}

/-- The capacities at a level are those of the caches that serve it. -/
theorem mem_capacitiesAt {size : UInt64} :
    size ∈ capacitiesAt caches level ↔ ∃ c ∈ caches, c.Serves level ∧ c.capacity = .ok size := by
  unfold capacitiesAt
  simp only [List.mem_filterMap, List.mem_filter, CacheGeometry.servesLevel_iff, and_assoc]
  apply exists_congr
  intro c
  cases c.capacity <;> simp [Except.toOption]

/-- The capacities at a level of two lists of caches are those of one and those of the other. -/
theorem capacitiesAt_append :
    capacitiesAt (caches ++ others) level =
      capacitiesAt caches level ++ capacitiesAt others level := by
  unfold capacitiesAt
  rw [List.filter_append, List.filterMap_append]

/-- Where all caches have capacities, taking them does not fail. -/
theorem mapM_capacity (told : ∀ c ∈ caches, c.HasCapacity) :
    caches.mapM CacheGeometry.capacity = .ok (caches.filterMap fun c => c.capacity.toOption) := by
  induction caches with
  | nil => rfl
  | cons c rest ih =>
    obtain ⟨size, first⟩ := told c (by simp)
    rw [List.mapM_cons, first, ih fun other member => told other (List.mem_cons_of_mem c member),
      List.filterMap_cons, first]
    rfl

/-- The capacity of a level is the largest of its capacities. -/
theorem levelCapacity_eq (told : ∀ c ∈ caches, c.HasCapacity) :
    levelCapacity caches level = .ok (capacitiesAt caches level).max? := by
  have served : ∀ c ∈ caches.filter (CacheGeometry.servesLevel level), c.HasCapacity :=
    fun c member => told c (List.mem_of_mem_filter member)
  unfold levelCapacity capacitiesAt
  rw [mapM_capacity served, ← foldl_largerCapacity]
  rfl

/-- A level has no capacity exactly if no cache serves it. -/
theorem max?_capacitiesAt_eq_none_iff (told : ∀ c ∈ caches, c.HasCapacity) :
    (capacitiesAt caches level).max? = none ↔ ∀ c ∈ caches, ¬ c.Serves level := by
  rw [List.max?_eq_none_iff, List.eq_nil_iff_forall_not_mem]
  constructor
  · intro none c member serves
    obtain ⟨size, capacity⟩ := told c member
    exact none size (mem_capacitiesAt.2 ⟨c, member, serves, capacity⟩)
  · intro none size found
    obtain ⟨c, member, serves, -⟩ := mem_capacitiesAt.1 found
    exact none c member serves

/-- The capacity of a level is that of a cache that serves it, and no other is larger. -/
theorem max?_capacitiesAt_eq_some_iff {size : UInt64} :
    (capacitiesAt caches level).max? = some size ↔
      (∃ c ∈ caches, c.Serves level ∧ c.capacity = .ok size) ∧
        ∀ c ∈ caches, c.Serves level → ∀ other, c.capacity = .ok other → other ≤ size := by
  rw [List.max?_eq_some_iff, mem_capacitiesAt]
  apply and_congr_right
  intro _
  constructor
  · intro largest c member serves other capacity
    exact largest other (mem_capacitiesAt.2 ⟨c, member, serves, capacity⟩)
  · intro largest other found
    obtain ⟨c, member, serves, capacity⟩ := mem_capacitiesAt.1 found
    exact largest c member serves other capacity

/-- The capacity of a level depends only on which caches hold data there. -/
theorem max?_capacitiesAt_congr (same : ∀ c, c.Serves level → (c ∈ caches ↔ c ∈ others)) :
    (capacitiesAt caches level).max? = (capacitiesAt others level).max? := by
  apply max?_congr
  intro size
  simp only [mem_capacitiesAt]
  apply exists_congr
  intro c
  constructor
  · rintro ⟨member, serves, capacity⟩
    exact ⟨(same c serves).1 member, serves, capacity⟩
  · rintro ⟨member, serves, capacity⟩
    exact ⟨(same c serves).2 member, serves, capacity⟩

/-! ## The levels -/

/-- The levels that capacities are kept of. -/
inductive CacheLevel where
  | first
  | second
  | third
  deriving DecidableEq

/-- The number of a level. -/
def CacheLevel.number : CacheLevel → UInt8
  | .first => 1
  | .second => 2
  | .third => 3

namespace CacheLevels

/-- The capacity of a level, if one is known. -/
def capacity? (levels : CacheLevels) : CacheLevel → Option UInt64
  | .first => levels.l1
  | .second => levels.l2
  | .third => levels.l3

/-- Levels of given capacities. -/
def of (capacity? : CacheLevel → Option UInt64) : CacheLevels :=
  ⟨capacity? .first, capacity? .second, capacity? .third⟩

/-- Levels made of capacities have these. -/
@[simp] theorem capacity?_of (f : CacheLevel → Option UInt64) (k : CacheLevel) :
    (of f).capacity? k = f k := by
  cases k <;> rfl

/-- The larger capacity of two in each level; one that is not known is less than any. -/
def larger (a b : CacheLevels) : CacheLevels := of fun k => max (a.capacity? k) (b.capacity? k)

/-- Each level is the maximum of the capacities at it. -/
theorem ofCaches_eq (told : ∀ c ∈ caches, c.HasCapacity) :
    ofCaches caches = .ok (of fun k => (capacitiesAt caches k.number).max?) := by
  unfold ofCaches
  rw [levelCapacity_eq told, levelCapacity_eq told, levelCapacity_eq told]
  rfl

/-- Each level has the largest capacity of the caches that hold data there, and none if there is no
such cache; only that counts. The order of the caches does not, and caches that hold no data or
belong to another level may be put in or taken out anywhere. Caches that are put together have the
larger capacity of both in each level. -/
theorem ofCaches_largest (caches : List CacheGeometry) (told : ∀ c ∈ caches, c.HasCapacity) :
    ∃ levels, ofCaches caches = .ok levels ∧
      (∀ k : CacheLevel,
        (levels.capacity? k = none ↔ ∀ c ∈ caches, ¬ c.Serves k.number) ∧
          ∀ size, levels.capacity? k = some size ↔
            (∃ c ∈ caches, c.Serves k.number ∧ c.capacity = .ok size) ∧
              ∀ c ∈ caches, c.Serves k.number → ∀ other, c.capacity = .ok other → other ≤ size) ∧
      (∀ others, caches.Perm others → ofCaches others = .ok levels) ∧
      (∀ front extra back, caches = front ++ extra ++ back →
        ∃ fewer, ofCaches (front ++ back) = .ok fewer ∧ ∀ k : CacheLevel,
          (∀ c ∈ extra, c.kind = .instruction ∨ c.level ≠ k.number) →
            fewer.capacity? k = levels.capacity? k) ∧
      ∀ others, (∀ c ∈ others, c.HasCapacity) → ∃ more, ofCaches others = .ok more ∧
        ofCaches (caches ++ others) = .ok (levels.larger more) := by
  refine ⟨_, ofCaches_eq told, ?_, ?_, ?_, ?_⟩
  · intro k
    rw [capacity?_of]
    exact ⟨max?_capacitiesAt_eq_none_iff told, fun size => max?_capacitiesAt_eq_some_iff⟩
  · intro others order
    have told' : ∀ c ∈ others, c.HasCapacity := fun c member => told c (order.mem_iff.2 member)
    rw [ofCaches_eq told']
    congr 2
    funext k
    exact max?_capacitiesAt_congr fun c _ => order.mem_iff.symm
  · rintro front extra back rfl
    have told' : ∀ c ∈ front ++ back, c.HasCapacity := by
      intro c member
      apply told
      simp only [List.mem_append] at member ⊢
      tauto
    refine ⟨_, ofCaches_eq told', ?_⟩
    intro k idle
    rw [capacity?_of, capacity?_of]
    apply max?_capacitiesAt_congr
    intro c serves
    have outside : c ∉ extra := fun member => CacheGeometry.not_serves (idle c member) serves
    simp only [List.mem_append]
    tauto
  · intro others told'
    have together : ∀ c ∈ caches ++ others, c.HasCapacity := by
      intro c member
      rcases List.mem_append.1 member with here | there
      · exact told c here
      · exact told' c there
    refine ⟨_, ofCaches_eq told', ?_⟩
    rw [ofCaches_eq together]
    unfold larger
    congr 2
    funext k
    rw [capacity?_of, capacity?_of, capacitiesAt_append, max?_append]

/-- Caches of a machine with two kinds of cores: two that hold data at the first level, and one of
instructions that is larger than both. -/
def twoCores : List CacheGeometry :=
  [⟨.data, 1, 64, 1, 8, 64⟩, ⟨.instruction, 1, 64, 1, 16, 64⟩, ⟨.unified, 2, 64, 1, 16, 1024⟩,
    ⟨.data, 1, 64, 1, 12, 64⟩, ⟨.unified, 4, 64, 1, 16, 65536⟩]

/-- A cache of the second level, larger than that of the two cores, and one of the third. -/
def outerCaches : List CacheGeometry :=
  [⟨.unified, 2, 64, 1, 16, 2048⟩, ⟨.unified, 3, 64, 1, 12, 8192⟩]

/-- The largest data cache of each level counts, whichever core it is of, wherever it stands in the
list, and with further caches behind the list. The instruction cache and the one of the fourth level
do not count. -/
theorem ofCaches_twoCores :
    (∀ c ∈ twoCores, c.HasCapacity) ∧
      ofCaches twoCores = .ok { l1 := some 49152, l2 := some 1048576 } ∧
      ofCaches twoCores.reverse = .ok { l1 := some 49152, l2 := some 1048576 } ∧
      ofCaches (twoCores ++ outerCaches) =
        .ok { l1 := some 49152, l2 := some 2097152, l3 := some 6291456 } := by
  have told : ∀ c ∈ twoCores, c.HasCapacity := by
    simp only [twoCores, List.forall_mem_cons]
    exact ⟨⟨_, rfl⟩, ⟨_, rfl⟩, ⟨_, rfl⟩, ⟨_, rfl⟩, ⟨_, rfl⟩, by simp⟩
  have told' : ∀ c ∈ outerCaches, c.HasCapacity := by
    simp only [outerCaches, List.forall_mem_cons]
    exact ⟨⟨_, rfl⟩, ⟨_, rfl⟩, by simp⟩
  have inner : ofCaches twoCores = .ok { l1 := some 49152, l2 := some 1048576 } := by decide +kernel
  have outer : ofCaches outerCaches = .ok { l2 := some 2097152, l3 := some 6291456 } := by
    decide +kernel
  obtain ⟨levels, found, -, order, -, together⟩ := ofCaches_largest twoCores told
  obtain rfl := Except.ok.inj (found.symm.trans inner)
  obtain ⟨more, found', sum⟩ := together outerCaches told'
  obtain rfl := Except.ok.inj (found'.symm.trans outer)
  exact ⟨told, inner, order _ twoCores.reverse_perm.symm, sum⟩

end CacheLevels

end AccessLatency
