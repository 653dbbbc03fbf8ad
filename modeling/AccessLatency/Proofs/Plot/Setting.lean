import AccessLatency.Plot.SettingsJson
import AccessLatency.Proofs.Json.Decode
import AccessLatency.Proofs.Json.Fields
import Mathlib.Tactic

/-!
# The single settings of a plot

`Setting` lists the settings of a plot, each with the type of its values, the key of its field, and
the way in which its value is read and written. What is done with all settings alike is then said
once for a setting: `ofFields_eq_ok_iff` says that settings are read field by field, each one from
the field with its key or else from the defaults.
-/

set_option autoImplicit false

namespace AccessLatency

/-- The settings of a plot one by one, in the order they are written in. -/
inductive Setting where
  | input
  | output
  | xScale
  | yScale
  | l1
  | l2
  | l3
  | word
  | page
  | title
  | width
  | height
  deriving DecidableEq

namespace Setting

/-- The values of a setting. -/
abbrev Value : Setting → Type
  | .input | .title => String
  | .output => Option String
  | .xScale | .yScale => AxisScale
  | .l1 | .l2 | .l3 | .word | .page => UInt64
  | .width | .height => UInt32

/-- The value of a setting among all of them. -/
def of : (f : Setting) → PlotSettings → f.Value
  | .input, s => s.input
  | .output, s => s.output
  | .xScale, s => s.xScale
  | .yScale, s => s.yScale
  | .l1, s => s.sizes.l1
  | .l2, s => s.sizes.l2
  | .l3, s => s.sizes.l3
  | .word, s => s.sizes.word
  | .page, s => s.sizes.page
  | .title, s => s.title
  | .width, s => s.width
  | .height, s => s.height

/-- The default of a setting. -/
def standard (f : Setting) : f.Value := f.of {}

/-- The key of the field of a setting. -/
def key : Setting → String
  | .input => "input_path"
  | .output => "output_path"
  | .xScale => "x_scale"
  | .yScale => "y_scale"
  | .l1 => "l1_size"
  | .l2 => "l2_size"
  | .l3 => "l3_size"
  | .word => "word_size"
  | .page => "page_size"
  | .title => "title"
  | .width => "width"
  | .height => "height"

/-- Read the value of a setting. -/
def ofJson : (f : Setting) → Json → Except Json.Mismatch f.Value
  | .input => PlotSettings.pathOfJson
  | .output => Json.optional PlotSettings.pathOfJson
  | .xScale | .yScale => AxisScale.ofJson
  | .l1 | .l2 | .l3 | .word | .page => PlotSettings.sizeOfJson
  | .title => Json.stringAs "a string"
  | .width | .height => Json.word32

/-- The value of a setting as JSON. -/
def toJson : (f : Setting) → f.Value → Json
  | .input, path => .string path
  | .output, none => .null
  | .output, some path => .string path
  | .xScale, scale | .yScale, scale => .string scale.name
  | .l1, w | .l2, w | .l3, w | .word, w | .page, w => Json.ofWord w
  | .title, text => .string text
  | .width, w | .height, w => Json.ofWord (UInt64.ofNat w.toNat)

/-- All settings, in the order they are written in. -/
def all : List Setting :=
  [.input, .output, .xScale, .yScale, .l1, .l2, .l3, .word, .page, .title, .width, .height]

/-- Every setting is listed. -/
theorem mem_all (f : Setting) : f ∈ all := by
  cases f <;> decide

/-- Different settings have different keys. -/
theorem nodup_keys : (all.map key).Nodup := by decide

/-- A value of a setting is read back as it is written. -/
theorem ofJson_toJson (f : Setting) (v : f.Value) : f.ofJson (f.toJson v) = .ok v := by
  cases f with
  | input | title => rfl
  | output => cases v <;> rfl
  | xScale | yScale => cases v <;> rfl
  | l1 | l2 | l3 | word | page => exact Json.word_ofWord "u64" v
  | width | height => exact Json.word32_ofWord v

end Setting

namespace PlotSettings

/-- Settings made of a value for each one. -/
def ofValues (value : (f : Setting) → f.Value) : PlotSettings :=
  { input := value .input
    output := value .output
    xScale := value .xScale
    yScale := value .yScale
    sizes := ⟨value .l1, value .l2, value .l3, value .word, value .page⟩
    title := value .title
    width := value .width
    height := value .height }

/-- Settings made of values have these values. -/
@[simp] theorem of_ofValues (value : (f : Setting) → f.Value) (f : Setting) :
    f.of (ofValues value) = value f := by
  cases f <;> rfl

/-- Settings are made of their own values. -/
@[simp] theorem ofValues_of (s : PlotSettings) : ofValues (fun f => f.of s) = s := rfl

/-- The fields that settings are written as. -/
def fields (s : PlotSettings) : Json.Fields :=
  Setting.all.map fun f => (f.key, f.toJson (f.of s))

/-- The fields that settings are written as have all keys, in the order they are listed in. -/
theorem keys_fields (s : PlotSettings) : s.fields.keys = keys := rfl

/-- Settings are written as the object of their fields. -/
theorem toJson_eq_object (s : PlotSettings) : s.toJson = .object s.fields := by
  obtain ⟨input, output, xScale, yScale, sizes, title, width, height⟩ := s
  cases output <;> rfl

/-- Fields give values for some of the settings: none for a setting whose key they do not have, and
for any other the value that the JSON value under its key stands for. -/
structure Gives (fields : Json.Fields) (given : (f : Setting) → Option f.Value) : Prop where
  absent : ∀ f : Setting, Json.Fields.get? f.key fields = none → given f = none
  held : ∀ (f : Setting) (j : Json), Json.Fields.get? f.key fields = some j →
    ∃ value, f.ofJson j = .ok value ∧ given f = some value

/-- The settings that are given, and the defaults of the others. -/
def ofGiven (given : (f : Setting) → Option f.Value) : PlotSettings :=
  ofValues fun f => (given f).getD f.standard

/-- A setting has the value that is given, or else its default. -/
@[simp] theorem of_ofGiven (given : (f : Setting) → Option f.Value) (f : Setting) :
    f.of (ofGiven given) = (given f).getD f.standard :=
  of_ofValues _ f

section OfFields

variable {fields : Json.Fields} {given : (f : Setting) → Option f.Value}

/-- Fields give what the readers of the single settings find in them. -/
theorem gives_iff :
    Gives fields given ↔ ∀ f : Setting, Json.present f.ofJson f.key fields = .ok (given f) := by
  constructor
  · intro h f
    rw [Json.present_eq_ok_iff]
    cases found : Json.Fields.get? f.key fields with
    | none => exact .inl ⟨rfl, h.absent f found⟩
    | some j =>
      obtain ⟨value, read, gives⟩ := h.held f j found
      exact .inr ⟨j, value, rfl, read, gives⟩
  · intro reads
    constructor
    · intro f missing
      rcases Json.present_eq_ok_iff.1 (reads f) with ⟨-, none⟩ | ⟨j, value, found, -, -⟩
      · exact none
      · rw [missing] at found
        cases found
    · intro f j found
      rcases Json.present_eq_ok_iff.1 (reads f) with ⟨missing, -⟩ | ⟨i, value, same, read, gives⟩
      · rw [missing] at found
        cases found
      · rw [found] at same
        cases same
        exact ⟨value, read, gives⟩

/-- The sizes of the machine are read as the fields give them. -/
theorem sizesOfFields_of_gives (h : Gives fields given) :
    sizesOfFields fields = .ok (ofGiven given).sizes := by
  have reads := gives_iff.1 h
  unfold sizesOfFields
  refine bind_eq_ok_iff.2 ⟨_, reads .l1, ?_⟩
  refine bind_eq_ok_iff.2 ⟨_, reads .l2, ?_⟩
  refine bind_eq_ok_iff.2 ⟨_, reads .l3, ?_⟩
  refine bind_eq_ok_iff.2 ⟨_, reads .page, ?_⟩
  refine bind_eq_ok_iff.2 ⟨_, reads .word, ?_⟩
  rfl

/-- All settings are read as the fields give them. -/
theorem ofFields_of_gives (h : Gives fields given) : ofFields fields = .ok (ofGiven given) := by
  have reads := gives_iff.1 h
  unfold ofFields
  refine bind_eq_ok_iff.2 ⟨_, reads .height, ?_⟩
  refine bind_eq_ok_iff.2 ⟨_, reads .input, ?_⟩
  refine bind_eq_ok_iff.2 ⟨_, reads .output, ?_⟩
  refine bind_eq_ok_iff.2 ⟨_, reads .title, ?_⟩
  refine bind_eq_ok_iff.2 ⟨_, reads .width, ?_⟩
  refine bind_eq_ok_iff.2 ⟨_, reads .xScale, ?_⟩
  refine bind_eq_ok_iff.2 ⟨_, reads .yScale, ?_⟩
  refine bind_eq_ok_iff.2 ⟨_, sizesOfFields_of_gives h, ?_⟩
  rfl

/-- Fields that are read as settings give a value or none for each setting. -/
theorem exists_gives {s : PlotSettings} (h : ofFields fields = .ok s) :
    ∃ given, Gives fields given := by
  unfold ofFields at h
  obtain ⟨height, readHeight, h⟩ := bind_eq_ok_iff.1 h
  obtain ⟨input, readInput, h⟩ := bind_eq_ok_iff.1 h
  obtain ⟨output, readOutput, h⟩ := bind_eq_ok_iff.1 h
  obtain ⟨title, readTitle, h⟩ := bind_eq_ok_iff.1 h
  obtain ⟨width, readWidth, h⟩ := bind_eq_ok_iff.1 h
  obtain ⟨xScale, readX, h⟩ := bind_eq_ok_iff.1 h
  obtain ⟨yScale, readY, h⟩ := bind_eq_ok_iff.1 h
  obtain ⟨sizes, readSizes, -⟩ := bind_eq_ok_iff.1 h
  unfold sizesOfFields at readSizes
  obtain ⟨l1, readL1, readSizes⟩ := bind_eq_ok_iff.1 readSizes
  obtain ⟨l2, readL2, readSizes⟩ := bind_eq_ok_iff.1 readSizes
  obtain ⟨l3, readL3, readSizes⟩ := bind_eq_ok_iff.1 readSizes
  obtain ⟨page, readPage, readSizes⟩ := bind_eq_ok_iff.1 readSizes
  obtain ⟨word, readWord, -⟩ := bind_eq_ok_iff.1 readSizes
  have each (f : Setting) : ∃ value, Json.present f.ofJson f.key fields = .ok value := by
    cases f <;> exact ⟨_, by assumption⟩
  exact ⟨fun f => (each f).choose, gives_iff.2 fun f => (each f).choose_spec⟩

/-- Settings are read field by field: they are what each field gives, or else the default. -/
theorem ofFields_eq_ok_iff {s : PlotSettings} :
    ofFields fields = .ok s ↔ ∃ given, Gives fields given ∧ s = ofGiven given := by
  constructor
  · intro h
    obtain ⟨given, gives⟩ := exists_gives h
    rw [ofFields_of_gives gives] at h
    exact ⟨given, gives, (Except.ok.inj h).symm⟩
  · rintro ⟨given, gives, rfl⟩
    exact ofFields_of_gives gives

/-- How an object is read that a text holds. -/
theorem ofText_of_parse {text : String} (h : Json.parse text = some (.object fields)) :
    ofText text =
      if String.intercalate ", " (unknownKeys fields) = "" then
        (ofFields fields).mapError .mismatch
      else .error (.unknownKeys (unknownKeys fields)) := by
  unfold ofText
  rw [h]
  show ofJson (.object fields) = _
  unfold ofJson
  dsimp only
  congr 1
  cases ofFields fields <;> rfl

/-- Settings are read only from texts that hold an object. -/
theorem exists_fields_of_ofText {text : String} {s : PlotSettings} (h : ofText text = .ok s) :
    ∃ fields, Json.parse text = some (.object fields) ∧ ofFields fields = .ok s := by
  cases parsed : Json.parse text with
  | none =>
    unfold ofText at h
    rw [parsed] at h
    cases h
  | some j =>
    cases j with
    | object fields =>
      refine ⟨fields, rfl, ?_⟩
      rw [ofText_of_parse parsed] at h
      split at h
      · cases read : ofFields fields with
        | error why =>
          rw [read] at h
          cases h
        | ok settings =>
          rw [read] at h
          cases h
          rfl
      · cases h
    | _ =>
      unfold ofText at h
      rw [parsed] at h
      cases h

end OfFields

end PlotSettings

end AccessLatency
