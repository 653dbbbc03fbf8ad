import AccessLatency.Proofs.Files.Name
import AccessLatency.Proofs.Plot.ValidSettings
import Mathlib.Tactic

/-!
# The default output

Without an output path the chart is an image beside the table: `Path.withExtension` keeps the folder
and the stem of the input path, and the extension that it adds is read back as that of an image. So
validation has no fault to find in that path. An input path without a name stays as it is, and then
validation refuses it, if it gets that far.

There is one kind of path with a name that stays without an image: a name of two dots and an extension
loses its extension first, and the two dots then stand for the folder above. `outputPath_beside_input`
says that these are all, and `validate_two_dots` shows one of them.
-/

set_option autoImplicit false

namespace AccessLatency

/-- A path whose extension is that of an image names an image. -/
theorem ChartFormat.ofPath?_of_png {path : String}
    (h : Path.extension? path.toList = some ChartFormat.png.extension.toList) :
    ofPath? path = some .png := by
  unfold ofPath?
  rw [h, Option.bind_some]
  decide

/-- A path without a name names no format. -/
theorem ChartFormat.ofPath?_of_no_name {path : String} (h : Path.fileName? path.toList = none) :
    ofPath? path = none := by
  unfold ofPath? Path.extension?
  rw [h, Option.bind_none, Option.bind_none]

namespace PlotSettings

variable {s : PlotSettings}

/-- Without an output path the chart goes to the input path with the extension of an image. -/
theorem toList_outputPath (unset : s.output = none) :
    s.outputPath.toList = Path.withExtension ChartFormat.png.extension.toList s.input.toList := by
  unfold outputPath
  rw [unset, Option.getD_none, String.toList_ofList]

/-- Validation does not refuse an output path that names a format. -/
theorem validate_ne_noFormat {format : ChartFormat}
    (named : ChartFormat.ofPath? s.outputPath = some format) (path : String) :
    s.validate ≠ .error (.noFormat path) := by
  unfold validate formatOf
  rw [named]
  intro refused
  split at refused
  · cases refused
  · split at refused
    · cases refused
    · cases refused

/-- Validation refuses an output path that names no format, if it does not fail before. -/
theorem validate_of_no_format (unnamed : ChartFormat.ofPath? s.outputPath = none) :
    ∃ fault, s.validate = .error fault ∧
      (s.sizes.IsPositive → s.width ≠ 0 → s.height ≠ 0 → fault = .noFormat s.outputPath) := by
  unfold validate formatOf
  rw [unnamed]
  split
  · rename_i name size found
    refine ⟨_, rfl, ?_⟩
    intro positive
    have zero := List.find?_some found
    exact absurd (beq_iff_eq.1 zero) (isPositive_iff.1 positive _ (List.mem_of_find?_eq_some found))
  · split
    · rename_i empty
      refine ⟨_, rfl, ?_⟩
      intro _ width height
      exact absurd empty (by simp [width, height])
    · exact ⟨_, rfl, fun _ _ _ => rfl⟩

/-- Without an output path, an input path that ends in a name gives an output path in the same folder,
with the same stem, in the format of an image, which validation does not refuse. The one exception is
a path that loses its name with its extension. For such a path and for one without a name the output
path has no name, and validation refuses it, if it does not fail before. -/
theorem outputPath_beside_input (unset : s.output = none) :
    (∀ name, Path.fileName? s.input.toList = some name → ¬ Path.LosesName s.input.toList →
      Path.parent s.outputPath.toList = Path.parent s.input.toList ∧
        Path.stem? s.outputPath.toList = Path.stem? s.input.toList ∧
        ChartFormat.ofPath? s.outputPath = some .png ∧
        ∀ path, s.validate ≠ .error (.noFormat path)) ∧
    (Path.fileName? s.input.toList = none ∨ Path.LosesName s.input.toList →
      Path.fileName? s.outputPath.toList = none ∧
        ∃ fault, s.validate = .error fault ∧
          (s.sizes.IsPositive → s.width ≠ 0 → s.height ≠ 0 → fault = .noFormat s.outputPath)) := by
  have output := toList_outputPath unset
  constructor
  · intro name named keeps
    obtain ⟨parent, stem, extension⟩ :=
      Path.withExtension_keeps named keeps ChartFormat.png.extension.toList (by decide) (by decide)
        (by decide)
    rw [← output] at parent stem extension
    have format := ChartFormat.ofPath?_of_png extension
    exact ⟨parent, stem, format, validate_ne_noFormat format⟩
  · intro lost
    have unnamed : Path.fileName? s.outputPath.toList = none := by
      rw [output]
      rcases lost with none | loses
      · rw [Path.withExtension_of_no_name none]
        exact none
      · exact loses.fileName?_withExtension _
    exact ⟨unnamed, validate_of_no_format (ChartFormat.ofPath?_of_no_name unnamed)⟩

/-- Hidden folders, several dots and what does not count at the end are no hindrance, and a path that
ends in the folder above is refused. -/
theorem outputPath_of_archive :
    let archive : PlotSettings := { input := "runs/.old/..cpu.tar.gz/./" }
    let above : PlotSettings := { input := "runs/.." }
    (Path.parent archive.outputPath.toList = "runs/.old".toList ∧
      Path.stem? archive.outputPath.toList = some "..cpu.tar".toList ∧
      ChartFormat.ofPath? archive.outputPath = some .png ∧ archive.validate = .ok ()) ∧
    Path.fileName? above.outputPath.toList = none ∧
      ∃ fault, above.validate = .error fault := by
  intro archive above
  have named : Path.fileName? archive.input.toList = some "..cpu.tar.gz".toList := by decide
  have keeps : ¬ Path.LosesName archive.input.toList := by
    intro loses
    have unnamed := loses.fileName?_withExtension ChartFormat.png.extension.toList
    revert unnamed
    decide
  obtain ⟨parent, stem, format, -⟩ :=
    (outputPath_beside_input (s := archive) rfl).1 _ named keeps
  obtain ⟨unnamed, fault, refused, -⟩ :=
    (outputPath_beside_input (s := above) rfl).2 (.inl (by decide))
  refine ⟨⟨parent.trans (by decide), stem.trans (by decide), format, ?_⟩, unnamed, fault, refused⟩
  unfold validate formatOf
  rw [format]
  decide

/-- A path that ends in a name, and has no output path beside it: the name is lost with its extension,
and validation refuses what is left. -/
theorem validate_two_dots :
    let s : PlotSettings := { input := "..csv" }
    Path.fileName? s.input.toList = some "..csv".toList ∧ s.outputPath = ".." ∧
      s.validate = .error (.noFormat "..") := by
  intro s
  have named : Path.fileName? s.input.toList = some "..csv".toList := by decide
  have output : s.outputPath = ".." := by decide
  refine ⟨named, output, ?_⟩
  unfold validate formatOf
  rw [output]
  decide

end PlotSettings

end AccessLatency
