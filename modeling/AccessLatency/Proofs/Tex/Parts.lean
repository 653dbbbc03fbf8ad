import AccessLatency.Proofs.Tex.Document
import Mathlib.Tactic

/-!
# The parts of a document

A document is written line by line, and read in parts that are not lines: the options of the axis lie
between commas, and the plots end in semicolons. `toList_document` says that the lines of the document
of a figure, put together, are these parts put together.
-/

set_option autoImplicit false

namespace AccessLatency

namespace TexFigure

/-- The first option of the axis. -/
def firstOption (figure : TexFigure) : List Char := "\n\ttitle=".toList ++ Tex.group figure.title

/-- The other options of the axis. -/
def otherOptions (figure : TexFigure) : List (List Char) :=
  ["\n\txlabel=".toList ++ Tex.group figure.xLabel,
   "\n\tylabel=".toList ++ Tex.group figure.yLabel,
   "\n\theight=10cm".toList, " width=16cm".toList,
   " xmode=".toList ++ (Tex.mode figure.xScale).toList,
   " ymode=".toList ++ (Tex.mode figure.yScale).toList,
   " xmin=".toList ++ figure.xRange.lower.chars, " xmax=".toList ++ figure.xRange.upper.chars,
   " ymin=".toList ++ figure.yRange.lower.chars, " ymax=".toList ++ figure.yRange.upper.chars,
   " tick align=outside".toList, " tick pos=left".toList, " legend pos=outer north east".toList,
   [], "\n\tlegend entries=".toList ++ Tex.group (legendText figure), "\n".toList]

/-- The options of the axis. -/
def axisText (figure : TexFigure) : List Char :=
  firstOption figure ++ (otherOptions figure).flatMap fun piece => ',' :: piece

/-- The options of a plot. -/
def styleText (plot : TexPlot) : List Char :=
  "\n\t\t".toList ++ plot.style.toList ++ ",\n\t".toList

/-- The coordinates of a plot. -/
def coordinatesText (plot : TexPlot) : List Char :=
  (plot.points.flatMap fun p => "\n\t\t".toList ++ pointText p) ++ "\n\t".toList

/-- A plot without its semicolon. -/
def plotText (plot : TexPlot) : List Char :=
  "\n\t".toList ++ plotCommand ++ '[' :: (styleText plot
    ++ ']' :: (" coordinates ".toList ++ Tex.group (coordinatesText plot)))

/-- The lines of a plot, put together, are the plot and its semicolon. -/
theorem flatMap_plotLines (plot : TexPlot) :
    ((plotLines plot).flatMap fun line => '\n' :: line) = plotText plot ++ [';'] := by
  have points : ((plot.points.map fun p => "\t\t".toList ++ pointText p).flatMap
      fun line => '\n' :: line) = plot.points.flatMap fun p => "\n\t\t".toList ++ pointText p := by
    rw [List.flatMap_map]
    rfl
  unfold plotLines plotText styleText coordinatesText
  rw [List.flatMap_append, List.flatMap_append, points]
  simp only [List.flatMap_cons, List.flatMap_nil, Tex.group, List.append_assoc, List.cons_append,
    List.nil_append]
  rfl

/-- The line with the size, scales and bounds of the axis is eleven options and an empty one. -/
theorem boundsLine_eq (figure : TexFigure) :
    '\n' :: boundsLine figure =
      "\n\theight=10cm".toList ++ ',' :: (" width=16cm".toList ++
      ',' :: (" xmode=".toList ++ (Tex.mode figure.xScale).toList ++
      ',' :: (" ymode=".toList ++ (Tex.mode figure.yScale).toList ++
      ',' :: (" xmin=".toList ++ figure.xRange.lower.chars ++
      ',' :: (" xmax=".toList ++ figure.xRange.upper.chars ++
      ',' :: (" ymin=".toList ++ figure.yRange.lower.chars ++
      ',' :: (" ymax=".toList ++ figure.yRange.upper.chars ++
      ',' :: (" tick align=outside".toList ++ ',' :: (" tick pos=left".toList ++
      ',' :: (" legend pos=outer north east".toList ++ [',', ','])))))))))) := by
  unfold boundsLine
  simp only [List.append_assoc]
  rfl

/-- The lines that hold the options of the axis, and the end of the options. -/
def axisLines (figure : TexFigure) : List (List Char) :=
  [groupLine "title" figure.title, groupLine "xlabel" figure.xLabel,
   groupLine "ylabel" figure.yLabel, boundsLine figure,
   groupLine "legend entries" (legendText figure), [']']]

/-- The lines of the axis, put together, are its options and the bracket that ends them. -/
theorem flatMap_axisLines (figure : TexFigure) :
    ((axisLines figure).flatMap fun line => '\n' :: line) = axisText figure ++ [']'] := by
  have title : ∀ s, '\n' :: groupLine "title" s = "\n\ttitle=".toList ++ (Tex.group s ++ [',']) :=
    fun _ => rfl
  have xLabel : ∀ s,
      '\n' :: groupLine "xlabel" s = "\n\txlabel=".toList ++ (Tex.group s ++ [',']) := fun _ => rfl
  have yLabel : ∀ s,
      '\n' :: groupLine "ylabel" s = "\n\tylabel=".toList ++ (Tex.group s ++ [',']) := fun _ => rfl
  have legend : ∀ s, '\n' :: groupLine "legend entries" s =
      "\n\tlegend entries=".toList ++ (Tex.group s ++ [',']) := fun _ => rfl
  have last : '\n' :: [']'] = "\n".toList ++ [']'] := rfl
  unfold axisLines axisText firstOption otherOptions
  simp only [List.flatMap_cons, List.flatMap_nil, title, xLabel, yLabel, legend, boundsLine_eq,
    last, List.append_assoc, List.cons_append, List.nil_append, List.append_nil]

/-- The document of a figure, in the parts that it is read in. -/
theorem toList_document (figure : TexFigure) :
    figure.document.toList =
      opening ++ (axisText figure
        ++ ']' :: ((figure.plots.flatMap fun plot => plotText plot ++ [';']) ++ closing)) := by
  let first := "\\documentclass\x7bstandalone\x7d".toList
  let next := ["\\usepackage\x7bpgfplots\x7d".toList, "\\begin\x7bdocument\x7d".toList,
    "\\begin\x7btikzpicture\x7d".toList, "\\begin\x7baxis\x7d[".toList]
  let last := ["\\end\x7baxis\x7d".toList, "\\end\x7btikzpicture\x7d".toList,
    "\\end\x7bdocument\x7d".toList]
  have written : lines figure =
      first :: (next ++ (axisLines figure ++ (figure.plots.flatMap plotLines ++ last))) := rfl
  have front : (first ++ next.flatMap fun line => '\n' :: line) = opening := by decide
  have back : (last.flatMap fun line => '\n' :: line) = closing := by decide
  have plots : ((figure.plots.flatMap plotLines).flatMap fun line => '\n' :: line)
      = figure.plots.flatMap fun plot => plotText plot ++ [';'] := by
    rw [List.flatMap_assoc]
    simp only [flatMap_plotLines]
  unfold document
  rw [String.toList_ofList, written, Text.flatten_intersperse_cons, List.flatMap_append,
    List.flatMap_append, List.flatMap_append, flatMap_axisLines, plots, back, ← List.append_assoc,
    front, List.append_assoc, List.singleton_append]

end TexFigure

end AccessLatency
