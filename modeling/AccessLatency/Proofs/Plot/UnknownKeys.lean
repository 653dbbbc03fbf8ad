import AccessLatency.Proofs.Plot.Setting
import Mathlib.Tactic

/-!
# Keys that are no settings

An object with a key that is no setting is refused, with a message that lists these keys. They are
looked at as they stand in that message, so an object whose only such key is the empty one gives an
empty list, and is read: `ofText_of_unknown` has the exact condition.
-/

set_option autoImplicit false

namespace AccessLatency

namespace PlotSettings

/-- Names joined by commas give nothing if there are none, or only an empty one. -/
theorem intercalate_eq_empty_iff {names : List String} :
    String.intercalate ", " names = "" ↔ names = [] ∨ names = [""] := by
  match names with
  | [] => simp
  | [name] => simp
  | first :: second :: rest => simp [String.append_eq_empty_iff]

section

variable {fields : Json.Fields}

/-- The unknown keys are those of the object that belong to no setting. -/
theorem mem_unknownKeys_iff {key : String} :
    key ∈ unknownKeys fields ↔ key ∈ fields.keys ∧ key ∉ keys := by
  unfold unknownKeys
  rw [List.mem_filter]
  simp [Json.Fields.keys]

/-- The unknown keys ascend, as the keys of an object do. -/
theorem pairwise_unknownKeys (sorted : fields.keys.Pairwise (· < ·)) :
    (unknownKeys fields).Pairwise (· < ·) :=
  sorted.filter _

/-- Keys that are listed once are nothing but empty keys only if there is at most one of them. -/
theorem intercalate_unknownKeys_eq_empty_iff (sorted : fields.keys.Pairwise (· < ·)) :
    String.intercalate ", " (unknownKeys fields) = "" ↔ ∀ key ∈ unknownKeys fields, key = "" := by
  have ascending := pairwise_unknownKeys sorted
  rw [intercalate_eq_empty_iff]
  constructor
  · rintro (none | single)
    · simp [none]
    · simp [single]
  · intro empty
    match unknown : unknownKeys fields with
    | [] => exact .inl rfl
    | [key] =>
      obtain rfl : key = "" := empty key (by simp [unknown])
      exact .inr rfl
    | first :: second :: rest =>
      rw [unknown] at ascending empty
      have smaller : first < second := (List.pairwise_cons.1 ascending).1 second (by simp)
      rw [empty first (by simp), empty second (by simp)] at smaller
      exact absurd smaller (lt_irrefl "")

end

/-- What becomes of the keys of an object that are no settings. They are named in a message, each
once and in ascending order, whatever the values are; unless the only one is empty, which makes the
object read as if it was not there. -/
theorem ofText_of_unknown {text : String} {fields : Json.Fields}
    (h : Json.parse text = some (.object fields)) :
    ((∃ key ∈ fields.keys, key ∉ keys ∧ key ≠ "") →
      ∃ unknown, ofText text = .error (.unknownKeys unknown) ∧
        (Fault.unknownKeys unknown).message =
          "Invalid configuration: unknown configuration key(s): "
            ++ String.intercalate ", " unknown ∧
        unknown.Pairwise (· < ·) ∧ ∀ key, key ∈ unknown ↔ key ∈ fields.keys ∧ key ∉ keys) ∧
    ((∀ key ∈ fields.keys, key ∉ keys → key = "") →
      ofText text = (ofFields fields).mapError .mismatch) := by
  have sorted := Json.pairwise_keys_of_parse h
  rw [ofText_of_parse h]
  constructor
  · rintro ⟨key, member, foreign, notEmpty⟩
    have listed : ¬ String.intercalate ", " (unknownKeys fields) = "" := by
      rw [intercalate_unknownKeys_eq_empty_iff sorted]
      intro empty
      exact notEmpty (empty key (mem_unknownKeys_iff.2 ⟨member, foreign⟩))
    rw [if_neg listed]
    refine ⟨unknownKeys fields, rfl, ?_, pairwise_unknownKeys sorted, ?_⟩
    · show "Invalid configuration: " ++ ("unknown configuration key(s): " ++ _) = _
      rw [← String.append_assoc]
      rfl
    · intro key
      exact mem_unknownKeys_iff
  · intro empty
    have unlisted : String.intercalate ", " (unknownKeys fields) = "" := by
      rw [intercalate_unknownKeys_eq_empty_iff sorted]
      intro key member
      obtain ⟨held, foreign⟩ := mem_unknownKeys_iff.1 member
      exact empty key held foreign
    rw [if_pos unlisted]

/-- An object with misspelt keys, an empty key and a setting of a wrong type. -/
def misspelt : String := "\x7b\"zoom\":1,\"\":null,\"l3size\":2,\"l3_size\":\"big\"\x7d"

/-- The fields of that object. -/
def misspeltFields : Json.Fields :=
  [("", .null), ("l3_size", .string "big"), ("l3size", .number (.natural 2)),
   ("zoom", .number (.natural 1))]

/-- The object is refused for its three unknown keys, whatever the value of the known one is. -/
theorem ofText_misspelt :
    Json.parse misspelt = some (.object misspeltFields) ∧
      ∃ unknown, ofText misspelt = .error (.unknownKeys unknown) ∧
        (Fault.unknownKeys unknown).message =
          "Invalid configuration: unknown configuration key(s): "
            ++ String.intercalate ", " unknown ∧
        unknown.Pairwise (· < ·) ∧ ∀ key, key ∈ unknown ↔ key ∈ misspeltFields.keys ∧ key ∉ keys := by
  have parsed : Json.parse misspelt = some (.object misspeltFields) := by cbv
  exact ⟨parsed, (ofText_of_unknown parsed).1 ⟨"zoom", by decide, by decide, by decide⟩⟩

/-- An object whose only key is empty, which is no setting, is read as the defaults. -/
theorem ofText_empty_key :
    Json.parse "\x7b\"\":1\x7d" = some (.object [("", .number (.natural 1))]) ∧ "" ∉ keys ∧
      ofText "\x7b\"\":1\x7d" = .ok {} := by
  have parsed : Json.parse "\x7b\"\":1\x7d" = some (.object [("", .number (.natural 1))]) := by cbv
  have unlisted : String.intercalate ", " (unknownKeys [("", .number (.natural 1))]) = "" := by
    decide
  have nothing : Gives [("", .number (.natural 1))] fun _ => none := by
    constructor
    · intro f _
      rfl
    · intro f j found
      cases f <;> cases found
  refine ⟨parsed, by decide, ?_⟩
  rw [ofText_of_parse parsed, if_pos unlisted, ofFields_of_gives nothing]
  rfl

end PlotSettings

end AccessLatency
