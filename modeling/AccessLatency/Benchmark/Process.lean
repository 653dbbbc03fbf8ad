import AccessLatency.Benchmark.Run

/-!
# Arrays in the memory of a process

A `Mapping` says what an array holds; this module says where. A process has bytes at some addresses.
It asks the system for more, which are then at addresses where it had none before. In these it stores
the elements one behind the other, it loads and stores elements as long as it uses the array, and at
last it gives the bytes back. A process that touches a byte that is not there is stopped. What it
asks for and what it touches is noted in order.
-/

set_option autoImplicit false

namespace AccessLatency

/-- What a process does with memory: it asks for bytes, touches bytes from a place on, or gives bytes
back. -/
inductive MemoryEvent where
  | map (huge : Bool) (bytes : UInt64)
  | touch (place width : Nat)
  | unmap (start : Nat) (bytes : UInt64)
  deriving DecidableEq, Repr

/-- The number of bytes that is asked for, if any. -/
def MemoryEvent.request? : MemoryEvent → Option Nat
  | .map _ bytes => some bytes.toNat
  | .touch _ _ => none
  | .unmap _ _ => none

/-- A process: the bytes at all addresses where it has any, and what it has done so far. -/
@[ext]
structure Process where
  memory : Nat → Option UInt8
  events : List MemoryEvent

/-- How elements are made up of bytes. -/
structure ByteLayout (α : Type) where
  width : Nat
  bytes : α → Nat → UInt8
  value : (Nat → UInt8) → α
  value_of_bytes : ∀ (a : α) (given : Nat → UInt8), (∀ k < width, given k = bytes a k) →
    value given = a

namespace Process

/-- Have given bytes, or none, from a place on. -/
def put (p : Process) (start length : Nat) (byte : Nat → Option UInt8) : Process :=
  { p with
    memory := fun address =>
      if start ≤ address ∧ address < start + length then byte (address - start)
      else p.memory address }

/-- Note what is done. -/
def note (p : Process) (events : List MemoryEvent) : Process :=
  { p with events := p.events ++ events }

/-- Whether there are bytes from a place on. -/
def IsMapped (p : Process) (place width : Nat) : Prop := ∀ k < width, (p.memory (place + k)).isSome

instance (p : Process) (place width : Nat) : Decidable (p.IsMapped place width) :=
  inferInstanceAs (Decidable (∀ k < width, _))

variable {α : Type}

/-- Store an element at a place. -/
def store? (p : Process) (layout : ByteLayout α) (place : Nat) (a : α) : Option Process :=
  if p.IsMapped place layout.width then
    some ((p.put place layout.width fun k => some (layout.bytes a k)).note
      [.touch place layout.width])
  else none

/-- Load an element from a place. -/
def load? (p : Process) (layout : ByteLayout α) (place : Nat) : Option (Process × α) :=
  if p.IsMapped place layout.width then
    some (p.note [.touch place layout.width],
      layout.value fun k => (p.memory (place + k)).getD 0)
  else none

end Process

/-- Where a system puts the bytes that a process asks for. -/
structure Grant (p : Process) (bytes : UInt64) where
  start : Nat
  fresh : ∀ k < bytes.toNat, p.memory (start + k) = none

/-- A system, by its answers to requests for bytes: it puts as many as it is asked for, or says why
it does not. -/
abbrev MemorySystem : Type :=
  (p : Process) → Bool → (bytes : UInt64) → Except Mapping.Fault (Grant p bytes)

/-- The system that has only one place for bytes. -/
def MemorySystem.single (start : Nat) : MemorySystem := fun p _ bytes =>
  if fresh : ∀ k < bytes.toNat, p.memory (start + k) = none then .ok ⟨start, fresh⟩
  else .error .exhausted

/-- An array in memory: the address of its first element, the number of elements, and the number of
bytes that were asked for. -/
structure MappedArray where
  start : Nat
  count : UInt64
  bytes : UInt64
  deriving DecidableEq, Repr

/-- What can be done with an array: the element at an index is read, or another is written. -/
inductive ArrayUse (α : Type) where
  | read (i : Nat)
  | write (i : Nat) (a : α)
  deriving DecidableEq, Repr

namespace Mapping

variable {α : Type}

/-- Use a mapping: what it is then, and the element that is read or written, if there is one. -/
def use (m : Mapping α) : ArrayUse α → Mapping α × Option α
  | .read i => (m, m.get? i)
  | .write i a =>
    match m.set? i a with
    | some next => (next, some a)
    | none => (m, none)

/-- What a mapping answers to uses, one after the other. -/
def answers (m : Mapping α) : List (ArrayUse α) → List (Option α)
  | [] => []
  | u :: rest => (m.use u).2 :: answers (m.use u).1 rest

end Mapping

namespace MappedArray

variable {α : Type}

/-- The address of the element at an index. -/
def place (array : MappedArray) (layout : ByteLayout α) (i : Nat) : Nat :=
  array.start + i * layout.width

/-- Store the first elements. -/
def fill? (array : MappedArray) (layout : ByteLayout α) (element : Nat → α) (p : Process) :
    Nat → Option Process
  | 0 => some p
  | n + 1 =>
    match array.fill? layout element p n with
    | none => none
    | some filled => filled.store? layout (array.place layout n) (element n)

/-- Ask for memory and store every element; none if the process is stopped. -/
def create (system : MemorySystem) (layout : ByteLayout α) (p : Process) (count : UInt64)
    (huge : Bool) (element : Nat → α) : Option (Process × Except Mapping.Fault MappedArray) :=
  match Mapping.request count layout.width huge with
  | .error why => some (p, .error why)
  | .ok bytes =>
    match system p huge bytes with
    | .error why => some (p.note [.map huge bytes], .error why)
    | .ok grant =>
      let array : MappedArray := ⟨grant.start, count, bytes⟩
      let mapped := (p.put grant.start bytes.toNat fun _ => some 0).note [.map huge bytes]
      match array.fill? layout element mapped count.toNat with
      | none => none
      | some filled => some (filled, .ok array)

/-- Use an array. An index behind its end is refused, and nothing is touched. -/
def use? (array : MappedArray) (layout : ByteLayout α) (p : Process) :
    ArrayUse α → Option (Process × Option α)
  | .read i =>
    if i < array.count.toNat then
      match p.load? layout (array.place layout i) with
      | none => none
      | some (next, a) => some (next, some a)
    else some (p, none)
  | .write i a =>
    if i < array.count.toNat then
      match p.store? layout (array.place layout i) a with
      | none => none
      | some next => some (next, some a)
    else some (p, none)

/-- Use an array again and again. -/
def useAll? (array : MappedArray) (layout : ByteLayout α) (p : Process) :
    List (ArrayUse α) → Option (Process × List (Option α))
  | [] => some (p, [])
  | u :: rest =>
    match array.use? layout p u with
    | none => none
    | some (next, answer) =>
      match array.useAll? layout next rest with
      | none => none
      | some (last, answers) => some (last, answer :: answers)

/-- Give the bytes of an array back. -/
def drop (array : MappedArray) (p : Process) : Process :=
  (p.put array.start array.bytes.toNat fun _ => none).note [.unmap array.start array.bytes]

/-- The life of an array: it is created, used, and given back. None if the process is stopped. -/
def life? (system : MemorySystem) (layout : ByteLayout α) (p : Process) (count : UInt64)
    (huge : Bool) (element : Nat → α) (uses : List (ArrayUse α)) :
    Option (Process × Except Mapping.Fault (List (Option α))) :=
  match create system layout p count huge element with
  | none => none
  | some (asked, .error why) => some (asked, .error why)
  | some (filled, .ok array) =>
    match array.useAll? layout filled uses with
    | none => none
    | some (used, answers) => some (array.drop used, .ok answers)

end MappedArray

/-- The number that bytes spell, the lowest one first. -/
def littleEndian : Nat → (Nat → UInt8) → Nat
  | 0, _ => 0
  | n + 1, byte => (byte 0).toNat + 2 ^ 8 * littleEndian n fun k => byte (k + 1)

/-- The bytes of a number spell it, up to as many bits as they have. -/
theorem littleEndian_eq {n value : Nat} {byte : Nat → UInt8}
    (spelt : ∀ k < n, byte k = UInt8.ofNat (value / 2 ^ (8 * k))) :
    littleEndian n byte = value % 2 ^ (8 * n) := by
  induction n generalizing value byte with
  | zero => simp [littleEndian, Nat.mod_one]
  | succ n ih =>
    have low : (byte 0).toNat = value % 2 ^ 8 := by
      rw [spelt 0 (Nat.succ_pos n)]
      simp
    have high : littleEndian n (fun k => byte (k + 1)) = value / 2 ^ 8 % 2 ^ (8 * n) := by
      refine ih fun k inside => ?_
      rw [spelt (k + 1) (Nat.succ_lt_succ inside), Nat.div_div_eq_div_mul, ← Nat.pow_add]
      congr 3
      omega
    rw [littleEndian, low, high, Nat.mul_add, Nat.add_comm (8 * n), Nat.pow_add, Nat.mod_mul]

/-- Words, of eight bytes each. -/
def ByteLayout.word : ByteLayout UInt64 where
  width := 8
  bytes w k := UInt8.ofNat (w.toNat / 2 ^ (8 * k))
  value given := UInt64.ofNat (littleEndian 8 given)
  value_of_bytes w given spelt := by
    rw [littleEndian_eq spelt, ← UInt64.toNat_inj]
    simp

/-- A machine whose system answers a process. -/
def MemorySystem.host (system : MemorySystem) (p : Process)
    (timing : AccessPattern → UInt64 → Timing) : Host where
  grants huge bytes := (system p huge bytes).map fun _ => ()
  timing := timing

/-- Measure an array of a given size in the memory of a process; `uses` is what the walks do with its
words. -/
def Host.measureIn? (system : MemorySystem) (timing : AccessPattern → UInt64 → Timing) (p : Process)
    (size : UInt64) (huge : Bool) (uses : List (ArrayUse UInt64)) :
    Option (Process × Except BenchmarkFault (Option LatencyRow)) :=
  let words := size / wordSize
  if words = 0 then some (p, .ok none)
  else
    match MappedArray.life? system .word p words huge (fun i => UInt64.ofNat i) uses with
    | none => none
    | some (after, .error why) => some (after, .error (.allocation size why))
    | some (after, .ok _) =>
      some (after, .ok (some
        { size
          random := (timing .random size).latency
          sequential := (timing .sequential size).latency }))

end AccessLatency
