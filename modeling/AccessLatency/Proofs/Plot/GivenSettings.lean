import AccessLatency.Proofs.Json.Reading
import AccessLatency.Proofs.Plot.Setting
import Mathlib.Tactic

/-!
# Settings that a text gives

A text of an object gives a value for some of the settings and leaves the others at their defaults.
What counts for a setting is the last field with its key, `ofText_of_last`; the order of the fields,
the white space between them and the ways in which strings are spelled do not matter,
`ofText_of_spellsObject`. The sizes of the machine are settings like all others here, although they
are read as a record of their own.
-/

set_option autoImplicit false

namespace AccessLatency

namespace PlotSettings

section Given

variable {given : Json.Fields} {value : (f : Setting) → Option f.Value}

/-- An object gives the values that the last field of each key stands for. -/
theorem gives_of_last
    (last : ∀ f : Setting, Json.Fields.get? f.key given.reverse = (value f).map f.toJson) :
    Gives (Json.Fields.insertAll [] given) value := by
  have held (f : Setting) :
      Json.Fields.get? f.key (Json.Fields.insertAll [] given) = (value f).map f.toJson := by
    rw [Json.Fields.get?_insertAll, last f]
    exact Option.or_none
  constructor
  · intro f missing
    rw [held f] at missing
    exact Option.map_eq_none_iff.1 missing
  · intro f j found
    rw [held f] at found
    obtain ⟨v, gives, rfl⟩ := Option.map_eq_some_iff.1 found
    exact ⟨v, f.ofJson_toJson v, gives⟩

/-- An object whose keys are all settings has no unknown keys. -/
theorem unknownKeys_eq_nil (known : ∀ key ∈ given.keys, key ∈ keys) :
    unknownKeys (Json.Fields.insertAll [] given) = [] := by
  unfold unknownKeys
  rw [List.filter_eq_nil_iff]
  intro key member
  have held : key ∈ given.keys := by
    simpa using (Json.Fields.mem_keys_insertAll [] given).1 member
  simp [known key held]

/-- The settings are those that the last field of each key gives, and the defaults of the others. -/
theorem ofText_of_last {text : String}
    (parsed : Json.parse text = some (.object (Json.Fields.insertAll [] given)))
    (known : ∀ key ∈ given.keys, key ∈ keys)
    (last : ∀ f : Setting, Json.Fields.get? f.key given.reverse = (value f).map f.toJson) :
    ofText text = .ok (ofGiven value) := by
  rw [ofText_of_parse parsed, unknownKeys_eq_nil known, if_pos (by rfl),
    ofFields_of_gives (gives_of_last last)]
  rfl

/-- Every text of an object whose keys are settings is read. A setting that is named has the value
of the last field that names it, and each other setting has its default. -/
theorem ofText_of_spellsObject {before t behind : List Char} (spaceBefore : Json.IsGap before)
    (spelled : Json.SpellsObject (Json.deepest - 1) given t) (spaceBehind : Json.IsGap behind)
    (known : ∀ key ∈ given.keys, key ∈ keys)
    (last : ∀ f : Setting, Json.Fields.get? f.key given.reverse = (value f).map f.toJson) :
    ∃ s, ofText (String.ofList (before ++ (t ++ behind))) = .ok s ∧
      ∀ f : Setting, f.of s = (value f).getD f.standard := by
  have parsed := Json.parse_of_spellsObject spaceBefore spelled spaceBehind
  exact ⟨ofGiven value, ofText_of_last parsed known last, of_ofGiven value⟩

end Given

/-- A text with white space between its parts that names two settings, one of them twice. -/
def overrides : String :=
  "\n\x7b \"l3_size\": 1, \"x_scale\" :\"linear\" ,\"l3_size\":8388608\x7d\n"

/-- The fields of this text. -/
def overridingFields : Json.Fields :=
  [("l3_size", .number (.natural 1)), ("x_scale", .string "linear"),
   ("l3_size", .number (.natural 8388608))]

/-- The values that it gives. -/
def overriding : (f : Setting) → Option f.Value
  | .xScale => some .linear
  | .l3 => some 8388608
  | _ => none

/-- Of the setting that is named twice the last value counts, and the ten that are not named have
their defaults. -/
theorem ofText_overrides :
    ∃ s, ofText overrides = .ok s ∧ ∀ f : Setting, f.of s = (overriding f).getD f.standard := by
  have feed : Json.IsGap ['\n'] := by simp [Json.IsGap, Json.isSpace]
  have space : Json.IsGap [' '] := by simp [Json.IsGap, Json.isSpace]
  have linear : Json.Spells 126 (.value (.string "linear")) (Json.stringChars "linear") :=
    .string (Json.spellsString_stringChars "linear")
  have last := Json.Spells.lastField Json.isGap_nil (Json.spellsString_stringChars "l3_size")
    Json.isGap_nil Json.isGap_nil (Json.spells_natural 126 8388608) Json.isGap_nil
  have scale := Json.Spells.nextField space (Json.spellsString_stringChars "x_scale")
    space Json.isGap_nil linear space last
  have fields := Json.Spells.nextField space (Json.spellsString_stringChars "l3_size")
    Json.isGap_nil space (Json.spells_natural 126 1) Json.isGap_nil scale
  have named (f : Setting) :
      Json.Fields.get? f.key overridingFields.reverse = (overriding f).map f.toJson := by
    cases f <;> rfl
  obtain ⟨s, read, values⟩ := ofText_of_spellsObject feed (.filled fields) feed (by decide) named
  have same : ofText overrides = .ok s := by
    rw [← read]
    exact congrArg ofText (by cbv)
  exact ⟨s, same, values⟩

end PlotSettings

end AccessLatency
