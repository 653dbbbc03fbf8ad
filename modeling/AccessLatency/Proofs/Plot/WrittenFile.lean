import AccessLatency.Proofs.Files.Place
import AccessLatency.Proofs.Plot.Stages
import Mathlib.Tactic

/-!
# The file that a plot writes

A plot that succeeds puts one file into the folders and leaves everything else as it is. A bitmap,
an outline and a document go to the place of the path that is returned. A typesetter names its file
by itself: it takes the stem of the path, and its own extension is in small letters. Since the
extension of a path is read in small or large letters alike, the path of a PDF leads to the file
only if it has its extension in small letters as well; `plot_writes_one_file` says so, and
`plot_capital_extension` shows a path that leads nowhere. Where a path leads is said by `placeOf`,
for which separators and single dots behind a name do not count.
-/

set_option autoImplicit false

namespace AccessLatency

namespace ChartFormat

/-- A format is named by the extension of the path, in upper or lower case. -/
theorem ofPath?_eq_some {path : String} {format : ChartFormat} (h : ofPath? path = some format) :
    ∃ extension, Path.extension? path.toList = some extension ∧
      Text.lower extension = format.extension.toList := by
  obtain ⟨extension, found, named⟩ := Option.bind_eq_some_iff.1 h
  refine ⟨extension, found, ?_⟩
  have same := List.find?_some named
  exact (beq_iff_eq.1 same).symm

end ChartFormat

namespace Path

/-- A name with an extension is its stem, a full stop and the extension. -/
theorem fileName?_of_extension? {p extension : List Char} (h : extension? p = some extension) :
    ∃ stem, stem? p = some stem ∧ fileName? p = some (stem ++ '.' :: extension) := by
  obtain ⟨name, found, parts⟩ := Option.bind_eq_some_iff.1 h
  have whole : splitName name = ((splitName name).1, some extension) := by rw [← parts]
  refine ⟨(splitName name).1, ?_, ?_⟩
  · unfold stem?
    rw [found]
    rfl
  · rw [found, ← eq_of_splitName whole]

end Path

/-- The place of the file that a chart is written to. -/
def ChartPlan.writtenPlace (plan : ChartPlan) (folders : Folders) : Place :=
  match plan.format with
  | .pdf =>
    FileTree.placeOf folders (FileTree.folderOf plan.output.toList) ++
      [(Path.stem? plan.output.toList).getD [] ++ ".pdf".toList]
  | _ => FileTree.placeOf folders plan.output.toList

/-- A change that succeeds is the one that is made. -/
theorem Folders.orUnchanged_eq_ok {folders : Folders} {changed : Except PlotFault Folders}
    (h : (folders.orUnchanged changed).2 = .ok ()) :
    changed = .ok (folders.orUnchanged changed).1 := by
  unfold Folders.orUnchanged at h ⊢
  cases changed with
  | error why => cases h
  | ok after => rfl

/-- A typesetter that succeeds puts its file into the folder that it is started in. -/
theorem Typesetter.run_eq_ok {typesetter : Typesetter} {folders after : Folders}
    {folder : List Char} {request : TypesetRequest}
    (h : typesetter.run folders folder request = .ok after) :
    after = FileTree.put folders
      (FileTree.placeOf folders folder ++ [request.jobName.toList ++ ".pdf".toList])
      (.file (.typeset request)) := by
  unfold Typesetter.run at h
  split at h
  · cases h
  · split at h
    · cases h
    · rename_i place opened
      split at h
      · cases h
      · split at h
        · cases h
        · split at h
          · cases h
          · split at h
            · cases h
            · rename_i file found
              cases h
              rw [FileTree.fileIn_eq_concat folders found, FileTree.openFolder_place folders opened]

/-- An image that is written is a file at the place of the output. -/
theorem Bitmap.write_eq_ok {plan : ChartPlan} {folders : Folders}
    (h : (Bitmap.write plan folders).2 = .ok ()) :
    ∃ content, (Bitmap.write plan folders).1 =
      FileTree.put folders (FileTree.placeOf folders plan.output.toList) (.file content) := by
  unfold Bitmap.write at h ⊢
  dsimp only at h ⊢
  cases empty : emptySide? plan.width plan.height with
  | none =>
    rw [empty] at h
    have written := mapError_eq_ok_iff.1 (Folders.orUnchanged_eq_ok h)
    exact ⟨_, FileTree.write_eq_ok folders written⟩
  | some side =>
    rw [empty] at h
    dsimp only at h
    split at h <;> cases h

namespace Chart

/-- A writer succeeds only if no fault breaks it off, and then leaves what it has written. -/
theorem brokenBy_eq_ok {fault? : Option PlotFault} {written : Folders × Except PlotFault Unit}
    (h : (brokenBy fault? written).2 = .ok ()) :
    written.2 = .ok () ∧ (brokenBy fault? written).1 = written.1 := by
  cases fault? with
  | some fault => cases h
  | none => exact ⟨h, rfl⟩

/-- A drawing that succeeds puts one file into the folders. -/
theorem draw_eq_ok {chart : Chart} {plan : ChartPlan} {typesetter : Typesetter} {folders : Folders}
    (h : (chart.draw plan typesetter folders).2 = .ok ()) :
    ∃ content, (chart.draw plan typesetter folders).1 =
      FileTree.put folders (plan.writtenPlace folders) (.file content) := by
  unfold draw at h ⊢
  unfold ChartPlan.writtenPlace
  -- The outline is kept apart, lest it is computed to see that it is a pair.
  generalize chart.outline plan = outline at h ⊢
  obtain ⟨drawing, fault?⟩ := outline
  cases format : plan.format with
  | png =>
    simp only [format] at h ⊢
    split at h
    · cases h
    · rename_i countable
      rw [if_neg countable]
      obtain ⟨written, after⟩ := brokenBy_eq_ok h
      obtain ⟨content, put⟩ := Bitmap.write_eq_ok written
      exact ⟨content, after.trans put⟩
  | svg =>
    simp only [format] at h ⊢
    obtain ⟨written, after⟩ := brokenBy_eq_ok h
    have put := FileTree.write_eq_ok folders
      (mapError_eq_ok_iff.1 (Folders.orUnchanged_eq_ok written))
    exact ⟨_, after.trans put⟩
  | tex =>
    simp only [format] at h ⊢
    exact ⟨_, FileTree.write_eq_ok folders (mapError_eq_ok_iff.1 (Folders.orUnchanged_eq_ok h))⟩
  | pdf =>
    simp only [format] at h ⊢
    have put := Typesetter.run_eq_ok (mapError_eq_ok_iff.1 (Folders.orUnchanged_eq_ok h))
    have job : (chart.typesetRequest plan).jobName.toList =
        (Path.stem? plan.output.toList).getD [] := String.toList_ofList
    have folder : typesetFolder plan.output = FileTree.folderOf plan.output.toList := rfl
    rw [job, folder] at put
    exact ⟨_, put⟩

end Chart

namespace PlotSettings

/-- A plan has the output path of the settings and the format that it names. -/
theorem plan_eq_ok {s : PlotSettings} {plan : ChartPlan} (h : s.plan = .ok plan) :
    plan.output = s.outputPath ∧ ChartFormat.ofPath? plan.output = some plan.format := by
  unfold PlotSettings.plan formatOf at h
  cases named : ChartFormat.ofPath? s.outputPath with
  | none =>
    rw [named] at h
    cases h
  | some format =>
    rw [named] at h
    cases h
    exact ⟨rfl, named⟩

/-- The path of a plan leads to the file that its chart is written to unless its extension is that
of a PDF in other than small letters. -/
theorem placeOf_eq_writtenPlace_iff {plan : ChartPlan} (folders : Folders)
    (h : ChartFormat.ofPath? plan.output = some plan.format) :
    FileTree.placeOf folders plan.output.toList = plan.writtenPlace folders ↔
      ∀ extension, Path.extension? plan.output.toList = some extension →
        Text.lower extension = ['p', 'd', 'f'] → extension = ['p', 'd', 'f'] := by
  obtain ⟨extension, found, lower⟩ := ChartFormat.ofPath?_eq_some h
  have only : (∀ other, Path.extension? plan.output.toList = some other →
      Text.lower other = ['p', 'd', 'f'] → other = ['p', 'd', 'f']) ↔
      (plan.format.extension.toList = ['p', 'd', 'f'] → extension = ['p', 'd', 'f']) := by
    rw [found]
    simp only [Option.some.injEq, forall_eq', lower]
  rw [only]
  unfold ChartPlan.writtenPlace
  -- Only a PDF is not written under its path, and only its extension can differ.
  cases plan.format with
  | png =>
    exact ⟨fun _ other => absurd other (by decide), fun _ => rfl⟩
  | svg =>
    exact ⟨fun _ other => absurd other (by decide), fun _ => rfl⟩
  | tex =>
    exact ⟨fun _ other => absurd other (by decide), fun _ => rfl⟩
  | pdf =>
    obtain ⟨stem, stemFound, name⟩ := Path.fileName?_of_extension? found
    have suffix : ".pdf".toList = '.' :: ['p', 'd', 'f'] := by decide
    dsimp only
    rw [FileTree.placeOf_eq_concat folders name, stemFound, Option.getD_some, suffix]
    constructor
    · intro same _
      have names := List.append_cancel_left same
      rw [List.cons_eq_cons] at names
      have behind := List.append_cancel_left names.1
      rw [List.cons_eq_cons] at behind
      exact behind.2
    · intro small
      rw [small (by decide)]

/-- The file of a PDF is beside the place of its path, under the stem of the path. -/
theorem writtenPlace_eq_beside {plan : ChartPlan} (folders : Folders)
    (h : ChartFormat.ofPath? plan.output = some plan.format) {extension : List Char}
    (found : Path.extension? plan.output.toList = some extension)
    (lower : Text.lower extension = ['p', 'd', 'f']) :
    ∃ stem, Path.stem? plan.output.toList = some stem ∧
      plan.writtenPlace folders =
        (FileTree.placeOf folders plan.output.toList).dropLast ++ [stem ++ ".pdf".toList] := by
  have format : plan.format = .pdf := by
    obtain ⟨other, same, named⟩ := ChartFormat.ofPath?_eq_some h
    rw [found] at same
    cases same
    rw [lower] at named
    cases format : plan.format with
    | pdf => rfl
    | _ =>
      rw [format] at named
      exact absurd named (by decide)
  obtain ⟨stem, stemFound, name⟩ := Path.fileName?_of_extension? found
  refine ⟨stem, stemFound, ?_⟩
  unfold ChartPlan.writtenPlace
  rw [format, FileTree.placeOf_eq_concat folders name, List.dropLast_concat]
  dsimp only
  rw [stemFound, Option.getD_some]

/-- A plot that succeeds puts one file into the folders and changes nothing else. The path that it
returns leads to this file unless its extension is that of a PDF in other than small letters; the
file of a PDF is always beside that place, under the stem of the path. -/
theorem plot_writes_one_file {s : PlotSettings} {typesetter : Typesetter} {folders : Folders}
    {p : String} (h : (s.plot typesetter folders).outcome.result = .ok p) :
    ∃ (file : Place) (content : FileContent),
      (∀ place, (s.plot typesetter folders).folders.nodeAt place =
        if place = file then some (.file content) else folders.nodeAt place) ∧
      (FileTree.placeOf folders p.toList = file ↔
        ∀ extension, Path.extension? p.toList = some extension →
          Text.lower extension = ['p', 'd', 'f'] → extension = ['p', 'd', 'f']) ∧
      ∀ extension, Path.extension? p.toList = some extension →
        Text.lower extension = ['p', 'd', 'f'] →
        ∃ stem, Path.stem? p.toList = some stem ∧
          file = (FileTree.placeOf folders p.toList).dropLast ++ [stem ++ ".pdf".toList] := by
  obtain ⟨table, plan, chart, -, -, planned, rfl, -, drawn, after⟩ := plot_eq_ok h
  obtain ⟨content, put⟩ := Chart.draw_eq_ok drawn
  have named := (plan_eq_ok planned).2
  refine ⟨plan.writtenPlace folders, content, ?_, placeOf_eq_writtenPlace_iff folders named,
    fun _ found lower => writtenPlace_eq_beside folders named found lower⟩
  intro place
  rw [after, put, FileTree.nodeAt_put]

/-- Folders with a table of one row and nothing else. -/
def oneTable : Folders :=
  { working := [], nodes := [(["in.csv".toList], .file (.text "100,1,2\n"))] }

/-- Settings that ask for a chart of the table at a path. -/
def chartAt (path : String) : PlotSettings := { input := "in.csv", output := some path }

/-- A path with its extension in small letters leads to the file that is written. -/
theorem plot_small_extension :
    ((chartAt "chart.pdf").plot .working oneTable).outcome.result = .ok "chart.pdf" ∧
      ∃ content, ((chartAt "chart.pdf").plot .working oneTable).folders.nodeAt
        ["chart.pdf".toList] = some (.file content) := by
  have succeeds : ((chartAt "chart.pdf").plot .working oneTable).outcome.result =
      .ok "chart.pdf" := by decide +kernel
  obtain ⟨file, content, nodes, same, -⟩ := plot_writes_one_file succeeds
  have small : Path.extension? "chart.pdf".toList = some ['p', 'd', 'f'] := by decide
  have leads : FileTree.placeOf oneTable "chart.pdf".toList = file := by
    rw [same, small]
    rintro extension ⟨⟩ -
    rfl
  have place : FileTree.placeOf oneTable "chart.pdf".toList = ["chart.pdf".toList] := by decide
  refine ⟨succeeds, content, ?_⟩
  rw [nodes, ← leads, place, if_pos rfl]

/-- A path with its extension in capital letters leads nowhere, before and after: the plot returns
it and puts the chart under another name. -/
theorem plot_capital_extension :
    ((chartAt "chart.PDF").plot .working oneTable).outcome.result = .ok "chart.PDF" ∧
      ((chartAt "chart.PDF").plot .working oneTable).folders.nodeAt
        (FileTree.placeOf oneTable "chart.PDF".toList) = none ∧
      oneTable.nodeAt ["chart.pdf".toList] = none ∧
      (((chartAt "chart.PDF").plot .working oneTable).folders.nodeAt
        ["chart.pdf".toList]).isSome = true := by
  refine ⟨?_, ?_, ?_, ?_⟩ <;> decide +kernel

end PlotSettings

end AccessLatency
