import AccessLatency.Proofs.Plot.GivenSettings
import Mathlib.Tactic

/-!
# Settings as texts

Settings that are written as a text are read back as they are, `ofText_text_toJson`: every value is
written as one of its spellings, the fields have just the keys of the settings, and each key once.
-/

set_option autoImplicit false

namespace AccessLatency

namespace Setting

/-- The characters of a written value spell the value, in an object at any depth. -/
theorem spells_toJson (depth : Nat) (f : Setting) (v : f.Value) :
    Json.Spells depth (.value (f.toJson v)) (f.toJson v).chars := by
  have string (text : String) :
      Json.Spells depth (.value (.string text)) (Json.string text).chars := by
    rw [Json.chars]
    exact .string (Json.spellsString_stringChars text)
  cases f with
  | input | title => exact string v
  | output =>
    cases v with
    | none =>
      show Json.Spells depth (.value .null) (Json.chars .null)
      rw [Json.chars]
      exact .wordNull
    | some path => exact string path
  | xScale | yScale => exact string (AxisScale.name v)
  | l1 | l2 | l3 | word | page => exact Json.spells_natural depth v
  | width | height => exact Json.spells_natural depth (UInt64.ofNat (UInt32.toNat v))

end Setting

namespace PlotSettings

variable (s : PlotSettings)

/-- The last field under the key of a setting holds its value. -/
theorem get?_fields (f : Setting) :
    Json.Fields.get? f.key s.fields.reverse = some (f.toJson (f.of s)) := by
  refine Json.Fields.get?_of_mem ?_ ?_
  · unfold Json.Fields.keys
    rw [List.map_reverse, List.nodup_reverse]
    exact Setting.nodup_keys
  · rw [List.mem_reverse]
    exact List.mem_map_of_mem (Setting.mem_all f)

/-- The fields of settings give a value for each of them. -/
theorem gives_fields :
    Gives (Json.Fields.insertAll [] s.fields) fun f => some (f.of s) :=
  gives_of_last (get?_fields s)

/-- Settings are written without unknown keys. -/
theorem unknownKeys_fields : unknownKeys (Json.Fields.insertAll [] s.fields) = [] := by
  refine unknownKeys_eq_nil fun key member => ?_
  rwa [keys_fields] at member

/-- The text of settings is the object of their fields. -/
theorem parse_text_toJson :
    Json.parse s.toJson.text = some (.object (Json.Fields.insertAll [] s.fields)) := by
  rw [toJson_eq_object]
  refine Json.parse_text_object ?_
  intro depth field member
  obtain ⟨f, -, rfl⟩ := List.mem_map.1 member
  exact f.spells_toJson depth (f.of s)

/-- Settings are read back from the text that they are written as. -/
theorem ofText_text_toJson : ofText s.toJson.text = .ok s := by
  have same : ofGiven (fun f => some (f.of s)) = s := ofValues_of s
  rw [ofText_of_parse (parse_text_toJson s), unknownKeys_fields, if_pos (by rfl),
    ofFields_of_gives (gives_fields s), same]
  rfl

end PlotSettings

end AccessLatency
