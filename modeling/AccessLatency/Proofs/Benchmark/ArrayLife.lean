import AccessLatency.Benchmark.Process
import AccessLatency.Proofs.Benchmark.Request
import Mathlib.Tactic

/-!
# The life of an array in memory

While an array is used, its process `Holds` it: in the bytes that the system put there stands what a
`Mapping` holds, everywhere else what stood there before, and only bytes of elements have been
touched. Storing an element keeps this, `holds_store`; so it holds of the array as it is filled, and
of every use, which gives the answer that the mapping gives, `holds_use`. Giving the bytes back then
leaves the process the memory that it had, `memory_drop`. An array for which the system is asked for
so many bytes `LivesIn` just these, `exists_livesIn`.
-/

set_option autoImplicit false

namespace AccessLatency

namespace Process

variable {p : Process} {start length address : Nat} {byte : Nat → Option UInt8}

/-! ## Bytes -/

/-- Where bytes are put, they are. -/
theorem memory_put_inside (low : start ≤ address) (high : address < start + length) :
    (p.put start length byte).memory address = byte (address - start) := if_pos ⟨low, high⟩

/-- Putting bytes leaves all others as they were. -/
theorem memory_put_outside (outside : ¬ (start ≤ address ∧ address < start + length)) :
    (p.put start length byte).memory address = p.memory address := if_neg outside

/-- Noting what is done changes no bytes. -/
@[simp]
theorem memory_note (p : Process) (events : List MemoryEvent) :
    (p.note events).memory = p.memory := rfl

/-- What is noted is added behind what was noted before. -/
@[simp]
theorem events_note (p : Process) (events : List MemoryEvent) :
    (p.note events).events = p.events ++ events := rfl

/-- Putting bytes is not noted by itself. -/
@[simp]
theorem events_put (p : Process) (start length : Nat) (byte : Nat → Option UInt8) :
    (p.put start length byte).events = p.events := rfl

end Process

namespace MappedArray

variable {α : Type} {layout : ByteLayout α} {before p : Process} {huge : Bool}
  {array : MappedArray} {elements : Array α} {element : Nat → α}

/-! ## Places -/

/-- The last byte of an element is before the end of all elements. -/
theorem element_inside {i count : Nat} (inside : i < count) (width : Nat) :
    i * width + width ≤ count * width := by
  rw [← Nat.succ_mul]
  exact Nat.mul_le_mul_right width inside

/-- An element ends before the bytes do. -/
theorem place_inside (room : array.count.toNat * layout.width ≤ array.bytes.toNat) {i : Nat}
    (inside : i < array.count.toNat) :
    array.place layout i + layout.width ≤ array.start + array.bytes.toNat := by
  have ends := element_inside inside layout.width
  unfold place
  omega

/-- Two elements share no byte. -/
theorem place_apart {i j k : Nat} (other : i ≠ j) (byte : k < layout.width) :
    ¬ (array.place layout i ≤ array.place layout j + k ∧
        array.place layout j + k < array.place layout i + layout.width) := by
  unfold place
  rintro ⟨low, high⟩
  rcases Nat.lt_or_gt_of_ne other with less | more
  · have ends := element_inside less layout.width
    omega
  · have ends := element_inside more layout.width
    omega

/-! ## What is held -/

/-- A process holds elements in an array: they are in bytes that it did not have before, it has the
same bytes as before everywhere else, and it has touched elements of the array only. -/
structure Holds (layout : ByteLayout α) (before : Process) (huge : Bool) (array : MappedArray)
    (elements : Array α) (p : Process) : Prop where
  room : array.count.toNat * layout.width ≤ array.bytes.toNat
  mapped : p.IsMapped array.start array.bytes.toNat
  apart : ∀ address, ¬ (array.start ≤ address ∧ address < array.start + array.bytes.toNat) →
    p.memory address = before.memory address
  held : ∀ i a, elements[i]? = some a → ∀ k < layout.width,
    p.memory (array.place layout i + k) = some (layout.bytes a k)
  touched : ∃ touches, p.events = before.events ++ .map huge array.bytes :: touches ∧
    ∀ event ∈ touches, ∃ i < array.count.toNat,
      event = .touch (array.place layout i) layout.width

/-- Each element that is inside the array may be touched. -/
theorem Holds.isMapped (h : Holds layout before huge array elements p) {i : Nat}
    (inside : i < array.count.toNat) : p.IsMapped (array.place layout i) layout.width := by
  intro k byte
  have ends := place_inside h.room inside
  have offset : array.place layout i + k = array.start + (i * layout.width + k) := by
    unfold place
    omega
  have bound : i * layout.width + k < array.bytes.toNat := by
    unfold place at ends
    omega
  rw [offset]
  exact h.mapped _ bound

/-- Touching an element of an array adds only that to what has been touched. -/
theorem Holds.touch (h : Holds layout before huge array elements p) {i : Nat}
    (inside : i < array.count.toNat) :
    ∃ touches, (p.note [.touch (array.place layout i) layout.width]).events =
        before.events ++ .map huge array.bytes :: touches ∧
      ∀ event ∈ touches, ∃ j < array.count.toNat,
        event = .touch (array.place layout j) layout.width := by
  obtain ⟨touches, events, only⟩ := h.touched
  refine ⟨touches ++ [.touch (array.place layout i) layout.width], ?_, ?_⟩
  · simp [events]
  · intro event member
    rcases List.mem_append.1 member with earlier | last
    · exact only event earlier
    · exact ⟨i, inside, List.mem_singleton.1 last⟩

/-- Storing an element keeps the others. -/
theorem holds_store (h : Holds layout before huge array elements p) {i : Nat} {a : α}
    (inside : i < array.count.toNat) {after : Array α} (here : after[i]? = some a)
    (others : ∀ j, j ≠ i → after[j]? = elements[j]?) :
    ∃ next, p.store? layout (array.place layout i) a = some next ∧
      Holds layout before huge array after next := by
  have ends := place_inside h.room inside
  have starts : array.start ≤ array.place layout i := Nat.le_add_right _ _
  refine ⟨_, if_pos (h.isMapped inside), h.room, ?_, ?_, ?_, ?_⟩
  · -- A byte of the element is there as it has been stored, any other as it was.
    intro k byte
    by_cases covered : array.place layout i ≤ array.start + k ∧
        array.start + k < array.place layout i + layout.width
    · rw [Process.memory_note, Process.memory_put_inside covered.1 covered.2]
      rfl
    · rw [Process.memory_note, Process.memory_put_outside covered]
      exact h.mapped k byte
  · intro address outside
    rw [Process.memory_note, Process.memory_put_outside (by omega)]
    exact h.apart address outside
  · intro j b found k byte
    rw [Process.memory_note]
    by_cases same : j = i
    · subst same
      rw [here] at found
      cases found
      rw [Process.memory_put_inside (Nat.le_add_right _ _) (Nat.add_lt_add_left byte _),
        Nat.add_sub_cancel_left]
    · rw [Process.memory_put_outside (place_apart (Ne.symm same) byte)]
      rw [others j same] at found
      exact h.held j b found k byte
  · exact h.touch inside

/-- Loading an element gives the one that is held. -/
theorem holds_load (h : Holds layout before huge array elements p) {i : Nat} {a : α}
    (inside : i < array.count.toNat) (found : elements[i]? = some a) :
    ∃ next, p.load? layout (array.place layout i) = some (next, a) ∧
      Holds layout before huge array elements next := by
  have value : layout.value (fun k => (p.memory (array.place layout i + k)).getD 0) = a := by
    apply layout.value_of_bytes
    intro k byte
    rw [h.held i a found k byte]
    rfl
  refine ⟨p.note [.touch (array.place layout i) layout.width], ?_, h.room, h.mapped, h.apart,
    h.held, h.touch inside⟩
  unfold Process.load?
  rw [if_pos (h.isMapped inside), value]

/-! ## Creation -/

/-- The bytes that a system has put somewhere hold an array without elements. -/
theorem holds_nothing (huge : Bool) {bytes count : UInt64} (grant : Grant before bytes)
    (room : count.toNat * layout.width ≤ bytes.toNat) :
    Holds layout before huge ⟨grant.start, count, bytes⟩ #[]
      ((before.put grant.start bytes.toNat fun _ => some 0).note [.map huge bytes]) := by
  refine ⟨room, ?_, ?_, ?_, [], rfl, ?_⟩
  · intro k byte
    rw [Process.memory_note,
      Process.memory_put_inside (Nat.le_add_right _ _) (Nat.add_lt_add_left byte _)]
    rfl
  · intro address outside
    rw [Process.memory_note, Process.memory_put_outside outside]
  · intro i a found
    simp at found
  · intro event member
    cases member

/-- Filling an array goes on to the end. -/
theorem holds_fill (h : Holds layout before huge array #[] p) (element : Nat → α) {n : Nat}
    (inside : n ≤ array.count.toNat) :
    ∃ filled, array.fill? layout element p n = some filled ∧
      Holds layout before huge array (Array.ofFn fun i : Fin n => element i) filled := by
  induction n with
  | zero => exact ⟨p, rfl, h⟩
  | succ n ih =>
    obtain ⟨filled, fills, holds⟩ := ih (Nat.le_of_succ_le inside)
    rw [fill?, fills]
    refine holds_store holds inside ?_ ?_
    · simp
    · intro j other
      rw [Array.ofFn_succ, Array.getElem?_push, if_neg (by simpa using other)]
      rfl

/-! ## Use -/

/-- A use of an array is answered as its mapping answers it. -/
theorem holds_use {m : Mapping α} (h : Holds layout before huge array m.elements p)
    (whole : m.elements.size = array.count.toNat) (u : ArrayUse α) :
    ∃ next, array.use? layout p u = some (next, (m.use u).2) ∧
      Holds layout before huge array (m.use u).1.elements next ∧
      (m.use u).1.elements.size = array.count.toNat := by
  cases u with
  | read i =>
    unfold use? Mapping.use Mapping.get?
    dsimp only
    by_cases inside : i < array.count.toNat
    · have found : m.elements[i]? = some m.elements[i] := by simp
      obtain ⟨next, loads, holds⟩ := holds_load h inside found
      rw [if_pos inside, loads, found]
      exact ⟨next, rfl, holds, whole⟩
    · rw [if_neg inside, Array.getElem?_eq_none (by omega)]
      exact ⟨p, rfl, h, whole⟩
  | write i a =>
    unfold use? Mapping.use Mapping.set?
    dsimp only
    by_cases inside : i < array.count.toNat
    · have bound : i < m.elements.size := whole ▸ inside
      have here : (m.elements.set i a bound)[i]? = some a := by simp
      have others : ∀ j, j ≠ i → (m.elements.set i a bound)[j]? = m.elements[j]? := by
        intro j other
        rw [Array.getElem?_set, if_neg (Ne.symm other)]
      obtain ⟨next, stores, holds⟩ := holds_store h inside here others
      rw [if_pos inside, stores, dif_pos bound]
      exact ⟨next, rfl, holds, by simpa using whole⟩
    · rw [if_neg inside, dif_neg (whole ▸ inside)]
      exact ⟨p, rfl, h, whole⟩

/-- Uses one after the other are answered as the mapping answers them, and the process holds the
array to the end. -/
theorem holds_useAll {m : Mapping α} (h : Holds layout before huge array m.elements p)
    (whole : m.elements.size = array.count.toNat) (uses : List (ArrayUse α)) :
    ∃ used last, array.useAll? layout p uses = some (used, m.answers uses) ∧
      Holds layout before huge array last used := by
  induction uses generalizing m p with
  | nil => exact ⟨p, m.elements, rfl, h⟩
  | cons u rest ih =>
    obtain ⟨next, answered, holds, still⟩ := holds_use h whole u
    obtain ⟨used, last, later, ends⟩ := ih holds still
    refine ⟨used, last, ?_, ends⟩
    rw [useAll?, answered]
    dsimp only
    rw [later]
    rfl

/-! ## The whole life -/

/-- A process that gives the bytes of an array back has the memory that it had before it asked for
them. -/
theorem memory_drop {count bytes : UInt64} (grant : Grant before bytes) {last : Array α}
    (h : Holds layout before huge ⟨grant.start, count, bytes⟩ last p) :
    (drop ⟨grant.start, count, bytes⟩ p).memory = before.memory := by
  funext address
  unfold drop
  rw [Process.memory_note]
  by_cases inside : grant.start ≤ address ∧ address < grant.start + bytes.toNat
  · have nothing := grant.fresh (address - grant.start) (by omega)
    rw [Nat.add_sub_cancel' inside.1] at nothing
    rw [Process.memory_put_inside inside.1 inside.2, nothing]
  · rw [Process.memory_put_outside inside]
    exact h.apart address inside

variable {count : UInt64} {bytes : UInt64} {uses : List (ArrayUse α)}

/-- Where no bytes can be asked for, the process is not changed at all. -/
theorem life_of_unrequestable (refused : Mapping.Unrequestable (count.toNat * layout.width) huge)
    (system : MemorySystem) :
    life? system layout p count huge element uses = some (p, .error .invalid) := by
  unfold life? create
  rw [Mapping.request_of_unrequestable refused]

/-- Where the system refuses the bytes, the array fails for the system's reason, and having asked is
all that is done. -/
theorem life_of_error (asked : Mapping.request count layout.width huge = .ok bytes)
    {system : MemorySystem} {why : Mapping.Fault} (answer : system p huge bytes = .error why) :
    life? system layout p count huge element uses = some (p.note [.map huge bytes], .error why) := by
  unfold life? create
  rw [asked]
  dsimp only
  rw [answer]

/-- An array that the system has bytes for lives to its end. -/
theorem exists_life (asked : Mapping.request count layout.width huge = .ok bytes)
    (room : count.toNat * layout.width ≤ bytes.toNat) (element : Nat → α)
    (uses : List (ArrayUse α)) {system : MemorySystem} {grant : Grant p bytes}
    (answer : system p huge bytes = .ok grant) :
    ∃ touches,
      life? system layout p count huge element uses =
        some (p.note (.map huge bytes :: touches ++ [.unmap grant.start bytes]),
          .ok ((Mapping.filled count bytes element).answers uses)) ∧
        ∀ event ∈ touches, ∃ i < count.toNat,
          event = .touch (grant.start + i * layout.width) layout.width := by
  have starts := holds_nothing huge grant room
  obtain ⟨full, fills, holds⟩ := holds_fill starts element (Nat.le_refl _)
  have whole : (Mapping.filled count bytes element).elements.size = count.toNat := by
    simp [Mapping.filled]
  obtain ⟨used, last, answered, ends⟩ :=
    holds_useAll (m := Mapping.filled count bytes element) holds whole uses
  obtain ⟨touches, events, only⟩ := ends.touched
  refine ⟨touches, ?_, only⟩
  have ended : drop ⟨grant.start, count, bytes⟩ used =
      p.note (.map huge bytes :: touches ++ [.unmap grant.start bytes]) := by
    refine Process.ext (memory_drop grant ends) ?_
    simp [drop, events]
  unfold life? create
  rw [asked]
  dsimp only
  rw [answer]
  dsimp only
  rw [fills]
  dsimp only
  rw [answered]
  dsimp only
  rw [ended]

/-- How an array lives that the system is asked for so many bytes for: the mapping is made if the
system grants just these, and otherwise fails as the system does; and all elements are inside them.
In a process nothing else is asked for.
Once there are bytes, the array is used as the mapping is, only bytes of elements are touched, and at
the end just as many bytes are given back, and the memory is what it was. -/
structure LivesIn (layout : ByteLayout α) (count : UInt64) (huge : Bool) (element : Nat → α)
    (bytes : UInt64) : Prop where
  created : ∀ grants, Mapping.create grants count layout.width huge element =
    (grants bytes).map fun _ => Mapping.filled count bytes element
  inside : ∀ i < count.toNat, i * layout.width + layout.width ≤ bytes.toNat
  refused : ∀ (system : MemorySystem) (p : Process) (uses : List (ArrayUse α)) why,
    system p huge bytes = .error why →
      life? system layout p count huge element uses =
        some (p.note [.map huge bytes], .error why)
  granted : ∀ (system : MemorySystem) (p : Process) (uses : List (ArrayUse α)) grant,
    system p huge bytes = .ok grant →
      ∃ touches,
        life? system layout p count huge element uses =
          some (p.note (.map huge bytes :: touches ++ [.unmap grant.start bytes]),
            .ok ((Mapping.filled count bytes element).answers uses)) ∧
          ∀ event ∈ touches, ∃ i < count.toNat,
            event = .touch (grant.start + i * layout.width) layout.width

/-- An array whose bytes can be asked for lives in these bytes. -/
theorem exists_livesIn (layout : ByteLayout α) (element : Nat → α)
    (requestable : ¬ Mapping.Unrequestable (count.toNat * layout.width) huge) :
    ∃ bytes : UInt64, Mapping.Takes (count.toNat * layout.width) huge bytes.toNat ∧
      LivesIn layout count huge element bytes := by
  obtain ⟨bytes, takes, asked⟩ := Mapping.exists_request requestable
  refine ⟨bytes, takes, ?_, ?_, ?_, ?_⟩
  · exact fun grants => Mapping.create_of_request asked grants element
  · intro i inside
    exact Nat.le_trans (element_inside inside layout.width) takes.le
  · exact fun system p uses why answer => life_of_error asked answer
  · exact fun system p uses grant answer => exists_life asked takes.le element uses answer

end MappedArray

end AccessLatency
