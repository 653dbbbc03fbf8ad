import AccessLatency.Json.Parser
import Mathlib.Data.String.Basic
import Mathlib.Tactic

/-!
# The fields of an object

Fields that are set one after the other are looked up by the last value that their key was given,
and they stay in ascending order of their keys, one for each key. So do the fields of every object
that is read from a text: `pairwise_keys_of_parse`.
-/

set_option autoImplicit false

namespace AccessLatency

namespace Json

namespace Fields

variable {key k : String} {value : Json} {fields : Fields}

/-- The keys of fields, in their order. -/
def keys (fields : Fields) : List String := fields.map Prod.fst

/-- No fields have no keys. -/
@[simp] theorem keys_nil : keys [] = [] := rfl

/-- A field in front adds its key in front. -/
@[simp] theorem keys_cons (field : String × Json) (rest : Fields) :
    keys (field :: rest) = field.1 :: keys rest := rfl

/-- Set fields one after the other. -/
def insertAll (done given : Fields) : Fields :=
  given.foldl (fun fields field => insert field.1 field.2 fields) done

/-- Inserting no fields changes nothing. -/
@[simp] theorem insertAll_nil (done : Fields) : insertAll done [] = done := rfl

/-- Fields are inserted from the first one on. -/
@[simp] theorem insertAll_cons (done : Fields) (field : String × Json) (rest : Fields) :
    insertAll done (field :: rest) = insertAll (insert field.1 field.2 done) rest := rfl

/-! ## Looking up -/

/-- The value of a key is that of the first field with it. -/
theorem get?_cons (field : String × Json) (rest : Fields) :
    get? k (field :: rest) = if k = field.1 then some field.2 else get? k rest := by
  unfold get?
  rw [List.lookup_cons]
  by_cases same : k = field.1
  · rw [if_pos same, beq_iff_eq.2 same]
  · rw [if_neg same, beq_false_of_ne same]

/-- A field that is inserted has its value, and all other keys have theirs. -/
theorem get?_insert :
    get? k (insert key value fields) = if k = key then some value else get? k fields := by
  induction fields with
  | nil => rw [insert, get?_cons]
  | cons field rest ih =>
    obtain ⟨next, held⟩ := field
    rw [insert]
    split
    · rw [get?_cons]
    · split
      · rename_i same
        rw [get?_cons, get?_cons, same]
        by_cases found : k = next <;> simp [found]
      · rename_i other
        rw [get?_cons, get?_cons, ih]
        by_cases found : k = next
        · have unset : k ≠ key := by
            rintro rfl
            exact other found
          rw [if_pos found, if_neg unset]
          exact (if_pos found).symm
        · simp [found]

/-- Of fields that are set one after the other, the last with a key counts. -/
theorem get?_insertAll (done given : Fields) :
    get? k (insertAll done given) = (get? k given.reverse).or (get? k done) := by
  induction given generalizing done with
  | nil => simp [get?]
  | cons field rest ih =>
    have behind : get? k (rest.reverse ++ [field]) =
        (get? k rest.reverse).or (get? k [field]) := List.lookup_append
    rw [insertAll_cons, ih, get?_insert, List.reverse_cons, behind, Option.or_assoc, get?_cons]
    by_cases found : k = field.1 <;> simp [found, get?]

/-- A field is looked up by its key if no other field has it. -/
theorem get?_of_mem (nodup : (keys fields).Nodup) (member : (key, value) ∈ fields) :
    get? key fields = some value := by
  induction fields with
  | nil => cases member
  | cons field rest ih =>
    rw [keys_cons, List.nodup_cons] at nodup
    rw [get?_cons]
    rcases List.mem_cons.1 member with rfl | later
    · rw [if_pos rfl]
    · have other : key ≠ field.1 := by
        intro same
        exact nodup.1 (same ▸ List.mem_map.2 ⟨_, later, rfl⟩)
      rw [if_neg other, ih nodup.2 later]

/-! ## Keys in order -/

/-- Inserting a field adds its key to the keys. -/
theorem mem_keys_insert : k ∈ keys (insert key value fields) ↔ k = key ∨ k ∈ keys fields := by
  induction fields with
  | nil => simp [insert]
  | cons field rest ih =>
    obtain ⟨next, held⟩ := field
    rw [insert]
    split
    · simp
    · split
      · rename_i same
        simp [same]
      · simp only [keys_cons, List.mem_cons, ih]
        tauto

/-- Inserting fields adds their keys to the keys. -/
theorem mem_keys_insertAll (done given : Fields) :
    k ∈ keys (insertAll done given) ↔ k ∈ keys done ∨ k ∈ keys given := by
  induction given generalizing done with
  | nil => simp
  | cons field rest ih =>
    rw [insertAll_cons, ih, mem_keys_insert, keys_cons, List.mem_cons]
    tauto

/-- Inserting a field keeps the keys in strictly ascending order. -/
theorem pairwise_keys_insert (sorted : (keys fields).Pairwise (· < ·)) :
    (keys (insert key value fields)).Pairwise (· < ·) := by
  induction fields with
  | nil => simp [insert]
  | cons field rest ih =>
    obtain ⟨next, held⟩ := field
    obtain ⟨least, others⟩ := List.pairwise_cons.1 sorted
    rw [insert]
    split
    · rename_i before
      refine List.pairwise_cons.2 ⟨?_, sorted⟩
      intro later member
      rcases List.mem_cons.1 member with rfl | member
      · exact before
      · exact before.trans (least later member)
    · split
      · rename_i same
        rw [keys_cons, same]
        exact sorted
      · rename_i notBefore other
        refine List.pairwise_cons.2 ⟨?_, ih others⟩
        intro later member
        rcases mem_keys_insert.1 member with rfl | member
        · exact lt_of_le_of_ne (not_lt.1 notBefore) (Ne.symm other)
        · exact least later member

end Fields

/-! ## The fields of objects that are read -/

/-- Reading fields keeps the keys in strictly ascending order. -/
theorem pairwise_keys_of_fieldsReader {item : Reader Json} {fuel : Nat} {done fields : Fields}
    {s rest : List Char} (sorted : done.keys.Pairwise (· < ·))
    (h : fieldsReader item fuel done s = some (fields, rest)) :
    fields.keys.Pairwise (· < ·) := by
  induction fuel generalizing done s with
  | zero => cases h
  | succ fuel ih =>
    rw [fieldsReader] at h
    cases first : fieldReader item s with
    | none =>
      rw [first] at h
      cases h
    | some read =>
      obtain ⟨⟨key, value⟩, after⟩ := read
      have next : (done.insert key value).keys.Pairwise (· < ·) := 
        Fields.pairwise_keys_insert sorted
      rw [first] at h
      dsimp only at h
      split at h
      · exact ih next h
      · cases h
        exact next
      · cases h

/-- The keys of an object that is read are in strictly ascending order. -/
theorem pairwise_keys_of_objectReader {item : Reader Json} {fields : Fields} {s rest : List Char}
    (h : objectReader item s = some (.object fields, rest)) : fields.keys.Pairwise (· < ·) := by
  unfold objectReader at h
  split at h
  · cases h
    exact List.Pairwise.nil
  · obtain ⟨⟨read, left⟩, done, same⟩ := Option.map_eq_some_iff.1 h
    cases same
    exact pairwise_keys_of_fieldsReader List.Pairwise.nil done

/-- So they are if the object is read as a value. -/
theorem pairwise_keys_of_valueReader {container : Option (Reader Json)} {fields : Fields}
    {s rest : List Char} (h : valueReader container s = some (.object fields, rest)) :
    fields.keys.Pairwise (· < ·) := by
  unfold valueReader at h
  split at h
  · obtain ⟨item, -, read⟩ := Option.bind_eq_some_iff.1 h
    unfold arrayReader at read
    split at read
    · cases read
    · obtain ⟨_, _, same⟩ := Option.map_eq_some_iff.1 read
      cases same
  · obtain ⟨item, -, read⟩ := Option.bind_eq_some_iff.1 h
    exact pairwise_keys_of_objectReader read
  · obtain ⟨_, _, same⟩ := Option.map_eq_some_iff.1 h
    cases same
  · cases h
  · cases h
  · cases h
  · obtain ⟨_, _, same⟩ := Option.map_eq_some_iff.1 h
    cases same

/-- The readers at all depths differ only in what they read inside of containers. -/
theorem exists_valueReader (depth : Nat) :
    ∃ container, nestedReader depth = valueReader container := by
  cases depth with
  | zero => exact ⟨none, rfl⟩
  | succ depth => exact ⟨some (nestedReader depth), rfl⟩

/-- The fields of an object that is read are in ascending order of their keys, one for each key. -/
theorem pairwise_keys_of_parse {text : String} {fields : Fields}
    (h : parse text = some (.object fields)) : fields.keys.Pairwise (· < ·) := by
  unfold parse parseChars at h
  split at h
  · rename_i j rest read
    split at h
    · cases h
      -- The readers at all depths differ only in what they do with nested containers.
      unfold deepest nestedReader at read
      exact pairwise_keys_of_valueReader read
    · cases h
  · cases h

end Json

end AccessLatency
