import AccessLatency.Json.Parser
import AccessLatency.Machine.Format
import AccessLatency.Plot.Settings

/-!
# Settings as JSON

Settings are written as one object with a field for each setting, the sizes of the machine among the
others. Read back, a field that is left out keeps its default, and a key that is no setting is
refused; the values are looked at in the order of their keys, those of the machine's sizes last.
-/

set_option autoImplicit false

namespace AccessLatency

namespace AxisScale

/-- Read a scale by its name. -/
def ofJson (j : Json) : Except Json.Mismatch AxisScale :=
  Json.variant (all.map fun scale => (scale.name, scale)) j

end AxisScale

namespace PlotSettings

/-- What settings are called in a mismatch. -/
def recordName : String := "struct PlotConfig"

/-- Settings as a JSON object. -/
def toJson (s : PlotSettings) : Json :=
  .object
    ([("input_path", .string s.input),
      ("output_path", match s.output with
        | none => .null
        | some path => .string path),
      ("x_scale", .string s.xScale.name),
      ("y_scale", .string s.yScale.name)]
      ++ (namedSizes s.sizes).map (fun size => (size.1, Json.ofWord size.2))
      ++ [("title", .string s.title),
        ("width", Json.ofWord (UInt64.ofNat s.width.toNat)),
        ("height", Json.ofWord (UInt64.ofNat s.height.toNat))])

/-- The keys of the settings, in the order they are written in. -/
def keys : List String :=
  ["input_path", "output_path", "x_scale", "y_scale", "l1_size", "l2_size", "l3_size", "word_size",
   "page_size", "title", "width", "height"]

/-- The keys of an object that are no settings. -/
def unknownKeys (fields : Json.Fields) : List String :=
  (fields.map (·.1)).filter fun key => !keys.contains key

/-- Read a path. -/
def pathOfJson (j : Json) : Except Json.Mismatch String := Json.stringAs "path string" j

/-- Read the size of a part of the machine. -/
def sizeOfJson (j : Json) : Except Json.Mismatch UInt64 := Json.word "u64" j

/-- Read the sizes of the machine. -/
def sizesOfFields (fields : Json.Fields) : Except Json.Mismatch MachineSizes := do
  let l1 ← Json.present sizeOfJson "l1_size" fields
  let l2 ← Json.present sizeOfJson "l2_size" fields
  let l3 ← Json.present sizeOfJson "l3_size" fields
  let page ← Json.present sizeOfJson "page_size" fields
  let word ← Json.present sizeOfJson "word_size" fields
  let standard : MachineSizes := {}
  return {
    l1 := l1.getD standard.l1
    l2 := l2.getD standard.l2
    l3 := l3.getD standard.l3
    word := word.getD standard.word
    page := page.getD standard.page }

/-- Read settings out of the fields of an object. -/
def ofFields (fields : Json.Fields) : Except Json.Mismatch PlotSettings := do
  let height ← Json.present Json.word32 "height" fields
  let input ← Json.present pathOfJson "input_path" fields
  let output ← Json.present (Json.optional pathOfJson) "output_path" fields
  let title ← Json.present (Json.stringAs "a string") "title" fields
  let width ← Json.present Json.word32 "width" fields
  let xScale ← Json.present AxisScale.ofJson "x_scale" fields
  let yScale ← Json.present AxisScale.ofJson "y_scale" fields
  let sizes ← sizesOfFields fields
  let standard : PlotSettings := {}
  return {
    input := input.getD standard.input
    output := output.getD standard.output
    xScale := xScale.getD standard.xScale
    yScale := yScale.getD standard.yScale
    sizes
    title := title.getD standard.title
    width := width.getD standard.width
    height := height.getD standard.height }

/-- Read settings out of a JSON value. Keys that are no settings are refused together; a single
empty key names nothing, and is ignored. -/
def ofJson : Json → Except Fault PlotSettings
  | .object fields =>
    let unknown := unknownKeys fields
    if String.intercalate ", " unknown = "" then
      match ofFields fields with
      | .error why => .error (.mismatch why)
      | .ok settings => .ok settings
    else .error (.unknownKeys unknown)
  | j => .error (.mismatch (.wrongType j.describe recordName))

/-- Read settings out of a JSON text. -/
def ofText (text : String) : Except Fault PlotSettings :=
  match Json.parse text with
  | none => .error .notJson
  | some j => ofJson j

end PlotSettings

end AccessLatency
