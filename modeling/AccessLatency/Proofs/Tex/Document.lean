import AccessLatency.Proofs.Tex.Escape
import Mathlib.Tactic

/-!
# Reading the document of a figure

A reader of documents. It knows the environments around an axis and TeX's groups, and nothing of how
the parts of a figure are written. The options of the axis are the pieces between the commas that
stand outside of groups, each a name and a value, and are looked up by name; the plots are what ends
in a semicolon outside of groups, each with options of its own and a group of coordinates. Numbers
are read as literals, and the texts are returned as they stand in their groups, escaped.
-/

set_option autoImplicit false

namespace AccessLatency

namespace TexFigure

/-- The command that begins a plot. -/
def plotCommand : List Char := "\\addplot".toList

/-- What stands in front of the options of the axis. -/
def opening : List Char :=
  ("\\documentclass\x7bstandalone\x7d\n\\usepackage\x7bpgfplots\x7d\n\\begin\x7bdocument\x7d\n"
    ++ "\\begin\x7btikzpicture\x7d\n\\begin\x7baxis\x7d[").toList

/-- What stands behind the plots. -/
def closing : List Char :=
  "\n\\end\x7baxis\x7d\n\\end\x7btikzpicture\x7d\n\\end\x7bdocument\x7d".toList

/-! ## Options -/

/-- The name and the value of an option; blank characters in front of it do not count. -/
def readOption (s : List Char) : List Char × List Char :=
  let body := Text.trimLeft s
  (body.takeWhile (· ≠ '='), (body.dropWhile (· ≠ '=')).drop 1)

/-- The text in the group that is the value of an option. -/
def readText? (options : List (List Char × List Char)) (name : String) : Option (List Char) :=
  (options.lookup name.toList).bind Tex.readGroup?

/-- The number that is the value of an option. -/
def readNumber? (options : List (List Char × List Char)) (name : String) : Option Binary64 :=
  (options.lookup name.toList).bind Binary64.ofChars?

/-- The scale that the value of an option names. -/
def readScale? (options : List (List Char × List Char)) (name : String) : Option AxisScale :=
  (options.lookup name.toList).bind fun s =>
    AxisScale.all.find? fun scale => (Tex.mode scale).toList == s

/-- The texts in the groups that are listed in the group of an option. -/
def readTexts? (options : List (List Char × List Char)) (name : String) :
    Option (List (List Char)) :=
  (readText? options name).bind fun s => (Tex.splitOpen ',' s).mapM Tex.readGroup?

/-! ## Plots -/

/-- The point that a pair of coordinates stands for. -/
def readPoint? (s : List Char) : Option Point :=
  match Text.split ',' s with
  | ['(' :: x, y] =>
    if y.getLast? = some ')' then
      match Binary64.ofChars? x, Binary64.ofChars? y.dropLast with
      | some x, some y => some ⟨x, y⟩
      | _, _ => none
    else none
  | _ => none

/-- The points of a list of coordinates, one in a line; blank lines do not count. -/
def readPoints? (s : List Char) : Option (List Point) :=
  (((Text.split '\n' s).map Text.trim).filter (· ≠ [])).mapM readPoint?

/-- The plot that a text without its semicolon stands for. Its style is its options without the
comma at their end. -/
def readPlot? (s : List Char) : Option TexPlot := do
  let body ← (plotCommand ++ ['[']).isPrefixOf? (Text.trimLeft s)
  let (options, rest) ← Tex.readUntil? ']' body
  let rest ← " coordinates ".toList.isPrefixOf? rest
  let coordinates ← Tex.readGroup? rest
  let points ← readPoints? coordinates
  return ⟨String.ofList (Text.trim options).dropLast, points⟩

/-- The plots of a text that goes on behind them. -/
def readPlots? (s : List Char) : Option (List TexPlot) :=
  let pieces := Tex.splitOpen ';' s
  if pieces.getLast? = some closing then pieces.dropLast.mapM readPlot? else none

/-! ## Documents -/

/-- The figure that the options of an axis and its plots stand for. -/
def ofOptions? (options : List (List Char × List Char)) (plots : List TexPlot) :
    Option TexFigure := do
  let title ← readText? options "title"
  let xLabel ← readText? options "xlabel"
  let yLabel ← readText? options "ylabel"
  let xScale ← readScale? options "xmode"
  let yScale ← readScale? options "ymode"
  let xLower ← readNumber? options "xmin"
  let xUpper ← readNumber? options "xmax"
  let yLower ← readNumber? options "ymin"
  let yUpper ← readNumber? options "ymax"
  let legend ← readTexts? options "legend entries"
  return { title, xLabel, yLabel, xScale, yScale, xRange := ⟨xLower, xUpper⟩,
           yRange := ⟨yLower, yUpper⟩, legend, plots }

/-- The figure that a document stands for. -/
def ofDocument? (document : String) : Option TexFigure := do
  let body ← opening.isPrefixOf? document.toList
  let (axis, rest) ← Tex.readUntil? ']' body
  let plots ← readPlots? rest
  ofOptions? ((Tex.splitOpen ',' axis).map readOption) plots

end TexFigure

end AccessLatency
