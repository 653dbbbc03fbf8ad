import AccessLatency.Proofs.Chart.Finite
import AccessLatency.Proofs.LatencyTable.RoundTrip
import AccessLatency.Proofs.Tex.Parts
import AccessLatency.Proofs.Text.Occurrences
import Mathlib.Tactic

/-!
# Reading documents back

The document of a figure is read as the figure, `ofDocument?_document`, if its texts are balanced and
its numbers are finite. Each part of the document is read by one function, and for each of them there
is a lemma that says so; what makes the parts fit is that none of them shows, outside of groups, the
character that ends it.

The same parts are counted: no text holds a command that begins a plot, so a document has as many of
them as the figure has plots.
-/

set_option autoImplicit false

namespace AccessLatency

/-- What follows a text is found behind it. -/
theorem isPrefixOf?_append {α : Type} [DecidableEq α] (s rest : List α) :
    s.isPrefixOf? (s ++ rest) = some rest := by
  induction s with
  | nil => cases rest <;> rfl
  | cons c s ih => simp [List.isPrefixOf?, ih]

/-- A list whose members are read back one by one is read back. -/
theorem mapM_map_eq_some {α β : Type} {read : β → Option α} {write : α → β} {l : List α}
    (h : ∀ a ∈ l, read (write a) = some a) : (l.map write).mapM read = some l := by
  induction l with
  | nil => rfl
  | cons a l ih =>
    rw [List.map_cons, List.mapM_cons, h a (by simp), ih fun b hb => h b (List.mem_cons_of_mem a hb)]
    rfl

/-- A number is written without characters other than digits and the marks of numerals. -/
theorem Binary64.not_mem_chars {c : Char} (noDigit : c.isDigit = false)
    (noMark : c ∉ Binary64.numeralMarks) (v : Binary64) : c ∉ v.chars := by
  intro member
  rcases Binary64.mem_chars member with digit | mark
  · rw [noDigit] at digit
    cases digit
  · exact noMark mark

/-- A number is written in plain characters. -/
theorem Binary64.isPlain_of_mem_chars {v : Binary64} {c : Char} (h : c ∈ v.chars) :
    Tex.IsPlain c := by
  refine ⟨?_, ?_, ?_⟩ <;>
  · rintro rfl
    exact Binary64.not_mem_chars (by decide) (by decide) v h

/-- A style that can be written: nothing in it ends the options or the plot that it stands in, and
it does not begin with a blank character. -/
structure TexPlot.IsStyle (s : List Char) : Prop where
  plain : ∀ c ∈ s, Tex.IsPlain c ∧ c ≠ ']' ∧ c ≠ ';'
  start : s.head?.map Text.isBlank ≠ some true

instance (s : List Char) : Decidable (TexPlot.IsStyle s) :=
  decidable_of_iff ((s.all fun c => decide (Tex.IsPlain c ∧ c ≠ ']' ∧ c ≠ ';')) = true
    ∧ s.head?.map Text.isBlank ≠ some true)
    ⟨fun h => ⟨by simpa using h.1, h.2⟩, fun h => ⟨by simpa using h.1, h.2⟩⟩

/-- A plot that can be written: its style can be, and its points are finite. -/
structure TexPlot.IsWritable (plot : TexPlot) : Prop where
  style : IsStyle plot.style.toList
  finite : ∀ p ∈ plot.points, p.IsFinite

namespace TexFigure

/-! ## Texts -/

/-- A text that can stand in a group of a document. -/
structure IsText (s : List Char) : Prop where
  balanced : Tex.Balanced s
  noPlot : Text.Lacks plotCommand s

instance (s : List Char) : Decidable (IsText s) :=
  decidable_of_iff (Tex.Balanced s ∧ Text.Lacks plotCommand s)
    ⟨fun h => ⟨h.1, h.2⟩, fun h => ⟨h.1, h.2⟩⟩

/-- A text that can stand among the options of an axis. -/
structure IsOption (s : List Char) : Prop where
  comma : Tex.Hides ',' s
  bracket : Tex.Hides ']' s
  noPlot : Text.Lacks plotCommand s

instance (s : List Char) : Decidable (IsOption s) :=
  decidable_of_iff (Tex.Hides ',' s ∧ Tex.Hides ']' s ∧ Text.Lacks plotCommand s)
    ⟨fun h => ⟨h.1, h.2.1, h.2.2⟩, fun h => ⟨h.1, h.2, h.3⟩⟩

section Texts

variable {s t : List Char}

/-- Texts for groups stay so when put together. -/
theorem IsText.append (hs : IsText s) (ht : IsText t) : IsText (s ++ t) :=
  ⟨hs.balanced.append ht.balanced, hs.noPlot.append ht.noPlot⟩

/-- A text made of texts for groups is one itself. -/
theorem isText_flatMap {α : Type} {l : List α} {f : α → List Char} (h : ∀ a ∈ l, IsText (f a)) :
    IsText (l.flatMap f) :=
  ⟨Tex.balanced_flatMap fun a ha => (h a ha).balanced,
   Text.lacks_flatMap fun a ha => (h a ha).noPlot⟩

/-- Plain characters can stand in a group. -/
theorem isText_of_isPlain (h : ∀ c ∈ s, Tex.IsPlain c) : IsText s := by
  refine ⟨Tex.balanced_of_isPlain h, ?_⟩
  apply Text.lacks_of_not_mem
  intro escape
  exact (h _ escape).1 rfl

/-- A number can stand in a group. -/
theorem isText_chars (v : Binary64) : IsText v.chars :=
  isText_of_isPlain fun _ hc => Binary64.isPlain_of_mem_chars hc

/-- Whatever is escaped can stand in a group. -/
theorem isText_escape (s : List Char) : IsText (Tex.escape s) := by
  refine ⟨Tex.balanced_escape s, ?_⟩
  apply Text.lacks_flatMap
  intro c _
  rcases Tex.escapeChar_cases c with known | ⟨itself, unknown⟩
  · have all : ∀ e ∈ Tex.sequences, Text.Lacks plotCommand e.1 := by decide
    exact all _ known
  · rw [itself]
    apply Text.lacks_of_not_mem
    rw [List.mem_singleton]
    rintro rfl
    exact unknown (by decide)

/-- A group can stand in a group. -/
theorem IsText.group (h : IsText s) : IsText (Tex.group s) := by
  refine ⟨h.balanced.group, ?_⟩
  have opening : Text.Lacks plotCommand ['\x7b'] := by decide
  have closing : Text.Lacks plotCommand ['\x7d'] := by decide
  exact opening.append (h.noPlot.append closing)

/-- A group can stand among the options of an axis. -/
theorem IsText.isOption_group (h : IsText s) : IsOption (Tex.group s) :=
  ⟨h.balanced.hides_group (by decide), h.balanced.hides_group (by decide), h.group.noPlot⟩

/-- Texts for options stay so when put together. -/
theorem IsOption.append (hs : IsOption s) (ht : IsOption t) : IsOption (s ++ t) :=
  ⟨hs.comma.append ht.comma, hs.bracket.append ht.bracket, hs.noPlot.append ht.noPlot⟩

/-- A number can stand among the options of an axis. -/
theorem isOption_chars (v : Binary64) : IsOption v.chars :=
  ⟨Tex.hides_of_not_mem (isText_chars v).balanced (Binary64.not_mem_chars (by decide) (by decide) v),
   Tex.hides_of_not_mem (isText_chars v).balanced (Binary64.not_mem_chars (by decide) (by decide) v),
   (isText_chars v).noPlot⟩

end Texts

/-- A figure that can be written. -/
structure IsWritable (figure : TexFigure) : Prop where
  title : IsText figure.title
  xLabel : IsText figure.xLabel
  yLabel : IsText figure.yLabel
  labelled : figure.legend ≠ []
  legend : ∀ entry ∈ figure.legend, IsText entry
  xRange : figure.xRange.IsFinite
  yRange : figure.yRange.IsFinite
  plots : ∀ plot ∈ figure.plots, plot.IsWritable

/-! ## The options of the axis -/

section Options

variable {figure : TexFigure}

/-- The entries of a legend are groups with commas between them. -/
theorem legendText_eq {first : List Char} {others : List (List Char)}
    (h : figure.legend = first :: others) :
    legendText figure =
      Tex.group first ++ (others.map Tex.group).flatMap fun entry => ',' :: entry := by
  unfold legendText
  rw [h, List.map_cons, Text.flatten_intersperse_cons]

/-- The legend can stand in a group. -/
theorem isText_legendText (h : figure.IsWritable) : IsText (legendText figure) := by
  obtain ⟨first, others, legend⟩ := List.exists_cons_of_ne_nil h.labelled
  have entries := h.legend
  rw [legend, List.forall_mem_cons] at entries
  rw [legendText_eq legend]
  apply entries.1.group.append
  apply isText_flatMap
  intro entry member
  obtain ⟨s, hs, rfl⟩ := List.mem_map.1 member
  have comma : IsText [','] := by decide
  exact comma.append (entries.2 s hs).group

/-- The commas outside of groups divide the legend into its entries. -/
theorem splitOpen_legendText (h : figure.IsWritable) :
    Tex.splitOpen ',' (legendText figure) = figure.legend.map Tex.group := by
  obtain ⟨first, others, legend⟩ := List.exists_cons_of_ne_nil h.labelled
  have entries := h.legend
  rw [legend, List.forall_mem_cons] at entries
  rw [legendText_eq legend, legend, List.map_cons]
  apply Tex.splitOpen_joined (by decide)
  · exact entries.1.isOption_group.comma
  · intro entry member
    obtain ⟨s, hs, rfl⟩ := List.mem_map.1 member
    exact (entries.2 s hs).isOption_group.comma

/-- The title can stand among the options of the axis. -/
theorem isOption_firstOption (h : figure.IsWritable) : IsOption (firstOption figure) := by
  have name : IsOption "\n\ttitle=".toList := by decide
  exact name.append h.title.isOption_group

/-- The mode of a scale can stand among the options of the axis. -/
theorem isOption_mode (scale : AxisScale) : IsOption (Tex.mode scale).toList := by
  cases scale <;> decide

/-- Each option behind the title can stand among the options of the axis. -/
theorem isOption_otherOptions (h : figure.IsWritable) :
    ∀ piece ∈ otherOptions figure, IsOption piece := by
  unfold otherOptions
  simp only [List.forall_mem_cons]
  -- A piece is a name, or a name with a group, a scale or a number behind it.
  refine ⟨?_, ?_, ?_, ?_, ?_, ?_, ?_, ?_, ?_, ?_, ?_, ?_, ?_, ?_, ?_, ?_, ?_⟩
  · exact IsOption.append (by decide) h.xLabel.isOption_group
  · exact IsOption.append (by decide) h.yLabel.isOption_group
  · decide
  · decide
  · exact IsOption.append (by decide) (isOption_mode _)
  · exact IsOption.append (by decide) (isOption_mode _)
  · exact IsOption.append (by decide) (isOption_chars _)
  · exact IsOption.append (by decide) (isOption_chars _)
  · exact IsOption.append (by decide) (isOption_chars _)
  · exact IsOption.append (by decide) (isOption_chars _)
  · decide
  · decide
  · decide
  · decide
  · exact IsOption.append (by decide) (isText_legendText h).isOption_group
  · decide
  · simp

/-- The commas outside of groups divide the options of the axis. -/
theorem splitOpen_axisText (h : figure.IsWritable) :
    Tex.splitOpen ',' (axisText figure) = firstOption figure :: otherOptions figure := by
  apply Tex.splitOpen_joined (by decide) (isOption_firstOption h).comma
  intro piece member
  exact (isOption_otherOptions h piece member).comma

/-- No bracket outside of groups ends the options of the axis too early. -/
theorem hides_axisText (h : figure.IsWritable) : Tex.Hides ']' (axisText figure) := by
  apply (isOption_firstOption h).bracket.append
  apply Tex.hides_flatMap
  intro piece member
  have comma : Tex.Hides ']' [','] := by decide
  exact comma.append (isOption_otherOptions h piece member).bracket

/-- No plot begins in the options of the axis. -/
theorem lacks_axisText (h : figure.IsWritable) : Text.Lacks plotCommand (axisText figure) := by
  apply (isOption_firstOption h).noPlot.append
  apply Text.lacks_flatMap
  intro piece member
  have comma : Text.Lacks plotCommand [','] := by decide
  exact comma.append (isOption_otherOptions h piece member).noPlot

/-- The names and values of the options of the axis. -/
def optionValues (figure : TexFigure) : List (List Char × List Char) :=
  [("title".toList, Tex.group figure.title), ("xlabel".toList, Tex.group figure.xLabel),
   ("ylabel".toList, Tex.group figure.yLabel), ("height".toList, "10cm".toList),
   ("width".toList, "16cm".toList), ("xmode".toList, (Tex.mode figure.xScale).toList),
   ("ymode".toList, (Tex.mode figure.yScale).toList),
   ("xmin".toList, figure.xRange.lower.chars), ("xmax".toList, figure.xRange.upper.chars),
   ("ymin".toList, figure.yRange.lower.chars), ("ymax".toList, figure.yRange.upper.chars),
   ("tick align".toList, "outside".toList), ("tick pos".toList, "left".toList),
   ("legend pos".toList, "outer north east".toList), ([], []),
   ("legend entries".toList, Tex.group (legendText figure)), ([], [])]

/-- Each option is read as its name and its value. -/
theorem map_readOption :
    (firstOption figure :: otherOptions figure).map readOption = optionValues figure := rfl

/-- The mode of a scale is found as that of this scale. -/
theorem find?_mode (scale : AxisScale) :
    (AxisScale.all.find? fun other => (Tex.mode other).toList == (Tex.mode scale).toList) =
      some scale := by
  cases scale <;> rfl

/-- The names and values of the options are read as the figure. -/
theorem ofOptions?_optionValues (h : figure.IsWritable) :
    ofOptions? (optionValues figure) figure.plots = some figure := by
  have title : readText? (optionValues figure) "title" = some figure.title :=
    Tex.readGroup?_group h.title.balanced
  have xLabel : readText? (optionValues figure) "xlabel" = some figure.xLabel :=
    Tex.readGroup?_group h.xLabel.balanced
  have yLabel : readText? (optionValues figure) "ylabel" = some figure.yLabel :=
    Tex.readGroup?_group h.yLabel.balanced
  have xScale : readScale? (optionValues figure) "xmode" = some figure.xScale :=
    find?_mode figure.xScale
  have yScale : readScale? (optionValues figure) "ymode" = some figure.yScale :=
    find?_mode figure.yScale
  have xLower : readNumber? (optionValues figure) "xmin" = some figure.xRange.lower :=
    Binary64.ofChars?_chars h.xRange.1
  have xUpper : readNumber? (optionValues figure) "xmax" = some figure.xRange.upper :=
    Binary64.ofChars?_chars h.xRange.2
  have yLower : readNumber? (optionValues figure) "ymin" = some figure.yRange.lower :=
    Binary64.ofChars?_chars h.yRange.1
  have yUpper : readNumber? (optionValues figure) "ymax" = some figure.yRange.upper :=
    Binary64.ofChars?_chars h.yRange.2
  have entries : readText? (optionValues figure) "legend entries" = some (legendText figure) :=
    Tex.readGroup?_group (isText_legendText h).balanced
  have legend : readTexts? (optionValues figure) "legend entries" = some figure.legend := by
    unfold readTexts?
    rw [entries, Option.bind_some, splitOpen_legendText h]
    apply mapM_map_eq_some
    intro entry member
    exact Tex.readGroup?_group (h.legend entry member).balanced
  unfold ofOptions?
  rw [title, xLabel, yLabel, xScale, yScale, xLower, xUpper, yLower, yUpper, legend]
  rfl

end Options

/-! ## Plots -/

section Plots

variable {plot : TexPlot} {p : Point}

/-- A finite point is read back as it is written. -/
theorem readPoint?_pointText (h : p.IsFinite) : readPoint? (pointText p) = some p := by
  have none : ∀ v : Binary64, ',' ∉ v.chars := Binary64.not_mem_chars (by decide) (by decide)
  have pieces : Text.split ',' (pointText p) = ['(' :: p.x.chars, p.y.chars ++ [')']] := by
    unfold pointText
    rw [← List.cons_append, Text.split_append (by simp [none]),
      Text.split_of_not_mem (by simp [none])]
  unfold readPoint?
  rw [pieces]
  simp [Binary64.ofChars?_chars h.1, Binary64.ofChars?_chars h.2]

/-- A point is written with parentheses, a comma and the characters of its two numbers. -/
theorem mem_pointText {c : Char} (h : c ∈ pointText p) :
    c ∈ ['(', ',', ')'] ∨ c ∈ p.x.chars ∨ c ∈ p.y.chars := by
  simp only [pointText, List.mem_cons, List.mem_append, List.not_mem_nil, or_false] at h ⊢
  tauto

/-- A point is written in plain characters. -/
theorem isPlain_of_mem_pointText {c : Char} (h : c ∈ pointText p) : Tex.IsPlain c := by
  rcases mem_pointText h with mark | x | y
  · have all : ∀ c ∈ ['(', ',', ')'], Tex.IsPlain c := by simp [Tex.IsPlain]
    exact all c mark
  · exact Binary64.isPlain_of_mem_chars x
  · exact Binary64.isPlain_of_mem_chars y

/-- A point is written without blank characters. -/
theorem isBlank_of_mem_pointText {c : Char} (h : c ∈ pointText p) : Text.isBlank c = false := by
  rcases mem_pointText h with mark | x | y
  · have all : ∀ c ∈ ['(', ',', ')'], Text.isBlank c = false := by simp [Text.isBlank]
    exact all c mark
  · exact (LatencyTable.isField_chars p.x c x).1
  · exact (LatencyTable.isField_chars p.y c y).1

/-- The lines between the line ends of the coordinates: an empty one, one for each point, and a
blank one. -/
theorem split_coordinatesText :
    Text.split '\n' (coordinatesText plot) =
      [] :: ((plot.points.map fun p => "\t\t".toList ++ pointText p) ++ ["\t".toList]) := by
  have joined : coordinatesText plot =
      [] ++ ((plot.points.map fun p => "\t\t".toList ++ pointText p) ++ ["\t".toList]).flatMap
        fun line => '\n' :: line := by
    unfold coordinatesText
    rw [List.nil_append, List.flatMap_append, List.flatMap_map]
    rfl
  rw [joined]
  apply Text.split_joined (by simp)
  intro line member
  rcases List.mem_append.1 member with point | last
  · obtain ⟨p, -, rfl⟩ := List.mem_map.1 point
    intro newline
    rcases List.mem_append.1 newline with tabs | inside
    · revert tabs
      decide
    · have solid := isBlank_of_mem_pointText inside
      revert solid
      decide
  · rw [List.mem_singleton.1 last]
    decide

/-- The coordinates of a plot are read back as its points. -/
theorem readPoints?_coordinatesText (h : ∀ p ∈ plot.points, p.IsFinite) :
    readPoints? (coordinatesText plot) = some plot.points := by
  have trimmed : ∀ p : Point, Text.trim ("\t\t".toList ++ pointText p) = pointText p := by
    intro p
    have tab : Text.isBlank '\t' = true := by decide
    show Text.trim ('\t' :: '\t' :: pointText p) = _
    rw [Text.trim_cons tab, Text.trim_cons tab,
      Text.trim_eq_self fun c hc => isBlank_of_mem_pointText hc]
  have last : Text.trim "\t".toList = [] := by decide
  have lines : (Text.split '\n' (coordinatesText plot)).map Text.trim =
      [] :: (plot.points.map pointText ++ [[]]) := by
    rw [split_coordinatesText, List.map_cons, List.map_append, List.map_map, List.map_singleton,
      last]
    simp only [Function.comp_def, trimmed]
    rfl
  have filled : ∀ s ∈ plot.points.map pointText, decide (s ≠ []) = true := by
    intro s member
    obtain ⟨p, -, rfl⟩ := List.mem_map.1 member
    exact decide_eq_true (List.cons_ne_nil _ _)
  unfold readPoints?
  -- The first line and the last are blank and are left out.
  rw [lines, List.filter_cons_of_neg (by simp), List.filter_append, List.filter_eq_self.2 filled,
    List.filter_cons_of_neg (by simp), List.filter_nil, List.append_nil]
  apply mapM_map_eq_some
  intro p member
  exact readPoint?_pointText (h p member)

/-- The coordinates of a plot can stand in a group. -/
theorem isText_coordinatesText : IsText (coordinatesText plot) := by
  have points : IsText (plot.points.flatMap fun p => "\n\t\t".toList ++ pointText p) := by
    apply isText_flatMap
    intro p _
    exact IsText.append (by decide) (isText_of_isPlain fun c hc => isPlain_of_mem_pointText hc)
  exact points.append (by decide)

/-- The options of a plot hide the characters that end the options and the plot. -/
theorem hides_styleText (h : plot.IsWritable) :
    Tex.Hides ']' (styleText plot) ∧ Tex.Hides ';' (styleText plot) := by
  have plain : ∀ c ∈ plot.style.toList, Tex.IsPlain c := fun c hc => (h.style.plain c hc).1
  have front : Tex.Hides ']' "\n\t\t".toList ∧ Tex.Hides ';' "\n\t\t".toList := by decide
  have back : Tex.Hides ']' ",\n\t".toList ∧ Tex.Hides ';' ",\n\t".toList := by decide
  constructor
  · have style := Tex.hides_of_isPlain plain fun member => (h.style.plain _ member).2.1 rfl
    exact (front.1.append style).append back.1
  · have style := Tex.hides_of_isPlain plain fun member => (h.style.plain _ member).2.2 rfl
    exact (front.2.append style).append back.2

/-- Without blank characters around them, the options of a plot are its style and a comma. -/
theorem trim_styleText (h : plot.IsWritable) :
    Text.trim (styleText plot) = plot.style.toList ++ [','] := by
  have newline : Text.isBlank '\n' = true := by decide
  have tab : Text.isBlank '\t' = true := by decide
  have ends : styleText plot =
      '\n' :: '\t' :: '\t' :: (plot.style.toList ++ [','] ++ ['\n'] ++ ['\t']) := by
    unfold styleText
    simp only [List.append_assoc]
    rfl
  rw [ends, Text.trim_cons newline, Text.trim_cons tab, Text.trim_cons tab, Text.trim_concat tab,
    Text.trim_concat newline]
  apply Text.trim_of_ends
  · intro c first
    rw [List.head?_append, Option.mem_def, Option.or_eq_some_iff] at first
    rcases first with style | ⟨-, comma⟩
    · have start := h.style.start
      rw [style, Option.map_some] at start
      simpa using start
    · obtain rfl := Option.some.inj comma
      decide
  · rw [List.getLast?_concat]
    intro c last
    obtain rfl := Option.some.inj last
    decide

/-- A plot is read back as it is written. -/
theorem readPlot?_plotText (h : plot.IsWritable) : readPlot? (plotText plot) = some plot := by
  have front : Text.trimLeft (plotText plot) =
      (plotCommand ++ ['[']) ++ (styleText plot
        ++ ']' :: (" coordinates ".toList ++ Tex.group (coordinatesText plot))) := rfl
  unfold readPlot?
  rw [front, isPrefixOf?_append]
  simp only [Option.bind_eq_bind, Option.bind_some]
  rw [Tex.readUntil?_append (hides_styleText h).1]
  simp only [Option.bind_some]
  rw [isPrefixOf?_append]
  simp only [Option.bind_some]
  rw [Tex.readGroup?_group isText_coordinatesText.balanced]
  simp only [Option.bind_some]
  rw [readPoints?_coordinatesText h.finite, trim_styleText h]
  simp

/-- A plot hides the semicolon that ends it. -/
theorem hides_plotText (h : plot.IsWritable) : Tex.Hides ';' (plotText plot) := by
  have parts : plotText plot =
      "\n\t\\addplot[".toList ++ (styleText plot
        ++ ("] coordinates ".toList ++ Tex.group (coordinatesText plot))) := rfl
  have command : Tex.Hides ';' "\n\t\\addplot[".toList := by decide
  have word : Tex.Hides ';' "] coordinates ".toList := by decide
  rw [parts]
  apply command.append
  apply (hides_styleText h).2.append
  exact word.append (isText_coordinatesText.balanced.hides_group (by decide))

/-- A plot begins with the command that begins a plot, and holds it nowhere else. -/
theorem occurrences_plotText (h : plot.IsWritable) (rest : List Char) :
    Text.occurrences plotCommand (plotText plot ++ ';' :: rest) =
      Text.occurrences plotCommand rest + 1 := by
  have parts : plotText plot ++ ';' :: rest =
      "\n\t".toList ++ (plotCommand ++ (("[".toList ++ (styleText plot
        ++ ("] coordinates ".toList ++ (Tex.group (coordinatesText plot) ++ ";".toList))))
        ++ rest)) := by
    simp only [plotText, List.append_assoc, List.cons_append]
    rfl
  have front : Text.Lacks plotCommand "\n\t".toList := by decide
  have style : IsText (styleText plot) := by
    have inner : IsText plot.style.toList := isText_of_isPlain fun c hc => (h.style.plain c hc).1
    exact (IsText.append (by decide) inner).append (by decide)
  -- All that follows the command is one text, lest the command is looked for across two.
  have back : IsText ("[".toList ++ (styleText plot
      ++ ("] coordinates ".toList ++ (Tex.group (coordinatesText plot) ++ ";".toList)))) := by
    have coordinates : IsText (Tex.group (coordinatesText plot) ++ ";".toList) :=
      isText_coordinatesText.group.append (by decide)
    exact IsText.append (by decide) (style.append (IsText.append (by decide) coordinates))
  have command : plotCommand = '\\' :: "addplot".toList := rfl
  rw [parts, front.occurrences_append, command, Text.occurrences_self_append (by decide),
    ← command, back.noPlot.occurrences_append]

end Plots

/-! ## Documents -/

section Documents

variable {figure : TexFigure}

/-- The plots of a document are read back as they are written, in order. -/
theorem readPlots?_plots {plots : List TexPlot} (h : ∀ plot ∈ plots, plot.IsWritable) :
    readPlots? ((plots.flatMap fun plot => plotText plot ++ [';']) ++ closing) = some plots := by
  have pieces : Tex.splitOpen ';' ((plots.flatMap fun plot => plotText plot ++ [';']) ++ closing) =
      plots.map plotText ++ [closing] := by
    have pieces : ∀ piece ∈ plots.map plotText, Tex.Hides ';' piece := by
      intro piece member
      obtain ⟨plot, hplot, rfl⟩ := List.mem_map.1 member
      exact hides_plotText (h plot hplot)
    have last : Tex.Hides ';' closing := by decide
    have split := Tex.splitOpen_flatMap_append (by decide) pieces last
    rwa [List.flatMap_map] at split
  unfold readPlots?
  dsimp only
  rw [pieces, List.getLast?_concat, if_pos rfl, List.dropLast_concat]
  apply mapM_map_eq_some
  intro plot member
  exact readPlot?_plotText (h plot member)

/-- The document of a figure is read as the figure. -/
theorem ofDocument?_document (h : figure.IsWritable) :
    ofDocument? figure.document = some figure := by
  -- Each reader takes its part off the front and leaves the rest to the next one.
  unfold ofDocument?
  rw [toList_document, isPrefixOf?_append]
  simp only [Option.bind_eq_bind, Option.bind_some]
  rw [Tex.readUntil?_append (hides_axisText h)]
  simp only [Option.bind_some]
  rw [readPlots?_plots h.plots, Option.bind_some, splitOpen_axisText h, map_readOption,
    ofOptions?_optionValues h]

/-- The command that begins a plot occurs once for each plot. -/
theorem occurrences_plots {plots : List TexPlot} (h : ∀ plot ∈ plots, plot.IsWritable) :
    Text.occurrences plotCommand
      ((plots.flatMap fun plot => plotText plot ++ [';']) ++ closing) = plots.length := by
  induction plots with
  | nil => decide
  | cons plot plots ih =>
    rw [List.forall_mem_cons] at h
    rw [List.flatMap_cons, List.append_assoc, List.append_assoc, List.singleton_append,
      occurrences_plotText h.1, ih h.2, List.length_cons]

/-- The command that begins a plot occurs in a document once for each plot. -/
theorem occurrences_document (h : figure.IsWritable) :
    Text.occurrences plotCommand figure.document.toList = figure.plots.length := by
  have opened : Text.Lacks plotCommand opening := by decide
  have closed : Text.Lacks plotCommand [']'] := by decide
  rw [toList_document, opened.occurrences_append, (lacks_axisText h).occurrences_append,
    ← List.singleton_append, closed.occurrences_append, occurrences_plots h.plots]

end Documents

end TexFigure

end AccessLatency
