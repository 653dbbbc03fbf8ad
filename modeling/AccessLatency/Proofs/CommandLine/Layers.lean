import AccessLatency.CommandLine.PlotArguments
import AccessLatency.Proofs.Plot.Setting
import AccessLatency.Proofs.Plot.Stages
import Mathlib.Tactic

/-!
# What a setting is taken from

A setting of a plot may be given by the command line, by the machine's caches if they are asked for,
and by a file with settings, and it has a default. The first of these that has a value for the
setting counts, for each setting on its own: `settings_first_given`.
-/

set_option autoImplicit false

namespace AccessLatency

namespace Setting

/-- The value of a setting on a command line. -/
def flag : (f : Setting) → PlotArguments → Option f.Value
  | .input, a => a.input
  | .output, a => a.output.map some
  | .xScale, a => a.xScale
  | .yScale, a => a.yScale
  | .l1, a => a.l1
  | .l2, a => a.l2
  | .l3, a => a.l3
  | .word, a => a.word
  | .page, a => a.page
  | .title, a => a.title
  | .width, a => a.width
  | .height, a => a.height

/-- The value of a setting among the capacities of a machine's caches. -/
def detected : (f : Setting) → CacheLevels → Option f.Value
  | .l1, levels => levels.l1
  | .l2, levels => levels.l2
  | .l3, levels => levels.l3
  | _, _ => none

/-- Levels without capacities give no setting a value. -/
theorem detected_default (f : Setting) : f.detected {} = none := by
  cases f <;> rfl

end Setting

namespace PlotArguments

variable {a : PlotArguments} {folders : Folders} {cpu : Cpuid} {levels : CacheLevels}

/-- The values of settings in the file that a command line names; none if it names no file. -/
inductive FileGives (a : PlotArguments) (folders : Folders) :
    ((f : Setting) → Option f.Value) → Prop where
  | noFile (unnamed : a.settingsFile = none) : FileGives a folders fun _ => none
  | file {path text : String} {fields : Json.Fields} {given : (f : Setting) → Option f.Value}
      (named : a.settingsFile = some path) (read : Folders.readText folders path = .ok text)
      (parsed : Json.parse text = some (.object fields))
      (gives : PlotSettings.Gives fields given) : FileGives a folders given

/-- Where the settings of a file are read, they are what the file gives and the defaults of the
rest. -/
theorem exists_fileGives {base : PlotSettings} (h : (a.fileSettings folders).result = .ok base) :
    ∃ given, FileGives a folders given ∧ base = PlotSettings.ofGiven given := by
  unfold fileSettings at h
  cases named : a.settingsFile with
  | none =>
    rw [named] at h
    cases h
    exact ⟨fun _ => none, .noFile named, rfl⟩
  | some path =>
    rw [named] at h
    obtain ⟨text, read, h⟩ := Outcome.result_bind_eq_ok_iff.1 h
    obtain ⟨settings, decoded, h⟩ := Outcome.result_bind_eq_ok_iff.1 h
    obtain ⟨_, -, h⟩ := Outcome.result_bind_eq_ok_iff.1 h
    cases h
    obtain ⟨fields, parsed, made⟩ :=
      PlotSettings.exists_fields_of_ofText (mapError_eq_ok_iff.1 decoded)
    obtain ⟨given, gives, same⟩ := PlotSettings.ofFields_eq_ok_iff.1 made
    exact ⟨given, .file named (mapError_eq_ok_iff.1 read) parsed gives, same⟩

/-- The levels that count: those of the machine, if they are asked for. -/
theorem result_detectedLevels (h : a.detectCaches = true → cpu.levels = .ok levels) :
    (a.detectedLevels cpu).result = .ok (if a.detectCaches then levels else {}) := by
  unfold detectedLevels
  cases asked : a.detectCaches with
  | false => rfl
  | true =>
    rw [if_pos rfl, if_pos rfl, h asked]
    refine Outcome.result_bind_eq_ok_iff.2 ⟨levels, rfl, ?_⟩
    refine Outcome.result_bind_eq_ok_iff.2 ⟨(), ?_, rfl⟩
    split <;> rfl

/-- An output on the command line replaces the one there is, which may be none. -/
theorem output_overrideSettings (a : PlotArguments) (levels : CacheLevels) (s : PlotSettings) :
    (a.overrideSettings levels s).output = (a.output.map some).getD s.output := by
  unfold overrideSettings
  cases a.output <;> rfl

/-- Over settings, the command line counts first and then the levels. -/
theorem of_overrideSettings (a : PlotArguments) (levels : CacheLevels) (s : PlotSettings)
    (f : Setting) :
    f.of (a.overrideSettings levels s) = ((f.flag a).or (f.detected levels)).getD (f.of s) := by
  rw [Option.getD_or]
  cases f with
  | output => exact output_overrideSettings a levels s
  | _ => rfl

/-- A setting is what the command line gives for it, or else the capacity of its level if caches are
asked for and the level has one, or else what the file gives, or else the default. What is given for
another setting does not matter. A file that cannot be read as settings ends it with its fault. -/
theorem settings_first_given (a : PlotArguments) (folders : Folders) (cpu : Cpuid) :
    (∀ path fault, a.settingsFile = some path →
      (PlotSettings.load folders path).result = .error fault →
      (a.settings folders cpu).result = .error fault) ∧
    ∀ levels, (a.detectCaches = true → cpu.levels = .ok levels) →
      (∀ path, a.settingsFile = some path →
        ∃ base, (PlotSettings.load folders path).result = .ok base) →
      ∃ given s, FileGives a folders given ∧ (a.settings folders cpu).result = .ok s ∧
        ∀ f : Setting, f.of s =
          ((f.flag a).or ((if a.detectCaches then f.detected levels else none).or
            (given f))).getD f.standard := by
  constructor
  · intro path fault named failed
    have base : (a.fileSettings folders).result = .error fault := by
      unfold fileSettings
      rw [named]
      exact failed
    exact Outcome.result_bind_error base
  · intro levels detected loads
    have loaded : ∃ base, (a.fileSettings folders).result = .ok base := by
      unfold fileSettings
      cases named : a.settingsFile with
      | none => exact ⟨_, rfl⟩
      | some path => exact loads path named
    obtain ⟨base, loaded⟩ := loaded
    obtain ⟨given, gives, rfl⟩ := exists_fileGives loaded
    refine ⟨given, _, gives, Outcome.result_bind_eq_ok_iff.2 ⟨_, loaded,
      Outcome.result_bind_eq_ok_iff.2 ⟨_, result_detectedLevels detected, rfl⟩⟩, ?_⟩
    intro f
    have levelsOf : f.detected (if a.detectCaches then levels else {}) =
        if a.detectCaches then f.detected levels else none := by
      rw [apply_ite f.detected, Setting.detected_default]
    rw [of_overrideSettings, PlotSettings.of_ofGiven, levelsOf]
    simp only [Option.getD_or]

/-- A command line with a file, caches and two settings of its own. -/
def layered : PlotArguments :=
  { settingsFile := some "plot.json", l1 := some 7, detectCaches := true, height := some 50 }

/-- Folders with that file, which gives all capacities. -/
def withSettings : Folders :=
  { working := []
    nodes := [(["plot.json".toList],
      .file (.text "\x7b\"l1_size\":1,\"l2_size\":2,\"l3_size\":3,\"width\":100\x7d"))] }

/-- A processor that describes one cache, of the second level. -/
def secondLevel : Cpuid :=
  { highestLeaf := 4, cacheParameters := [⟨67, 62914623, 1023, 0⟩] }

/-- The fields of the file. -/
def fileFields : Json.Fields :=
  [("l1_size", .number (.natural 1)), ("l2_size", .number (.natural 2)),
   ("l3_size", .number (.natural 3)), ("width", .number (.natural 100))]

/-- What the file gives for a setting is what stands under its key. -/
theorem given_of_withSettings {given : (f : Setting) → Option f.Value}
    (gives : FileGives layered withSettings given) : PlotSettings.Gives fileFields given := by
  have parsed : Json.parse "\x7b\"l1_size\":1,\"l2_size\":2,\"l3_size\":3,\"width\":100\x7d" =
      some (.object fileFields) := by cbv
  cases gives with
  | noFile unnamed => cases unnamed
  | file named read found gives =>
    cases named
    have text : Folders.readText withSettings "plot.json" =
        .ok "\x7b\"l1_size\":1,\"l2_size\":2,\"l3_size\":3,\"width\":100\x7d" := by
      decide +kernel
    rw [text] at read
    cases read
    rw [parsed] at found
    cases found
    exact gives

/-- The command line gives the first level and the height, the machine the second level, and the file
the third one and the width. Without the file there are no settings. -/
theorem settings_layered :
    (layered.settings { working := [], nodes := [] } secondLevel).result =
        .error (.file "plot.json" .missing) ∧
      ∃ s, (layered.settings withSettings secondLevel).result = .ok s ∧
        s.sizes.l1 = 7 ∧ s.sizes.l2 = 1048576 ∧ s.sizes.l3 = 3 ∧ s.width = 100 ∧
        s.height = 50 := by
  have levels : secondLevel.levels = .ok { l2 := some 1048576 } := by decide +kernel
  have missing : (PlotSettings.load { working := [], nodes := [] } "plot.json").result =
      .error (.file "plot.json" .missing) := by decide +kernel
  have loaded : (PlotSettings.load withSettings "plot.json").result =
      .ok { sizes := { l1 := 1, l2 := 2, l3 := 3 }, width := 100 } := by decide +kernel
  have loads : ∀ path, layered.settingsFile = some path →
      ∃ base, (PlotSettings.load withSettings path).result = .ok base := by
    rintro path ⟨⟩
    exact ⟨_, loaded⟩
  refine ⟨(settings_first_given _ _ _).1 "plot.json" _ rfl missing, ?_⟩
  obtain ⟨given, s, file, made, first⟩ := (settings_first_given _ _ _).2 _ (fun _ => levels) loads
  have gives := given_of_withSettings file
  obtain ⟨third, readThird, l3⟩ := gives.held .l3 (.number (.natural 3)) rfl
  obtain ⟨wide, readWide, width⟩ := gives.held .width (.number (.natural 100)) rfl
  cases readThird
  cases readWide
  have third := first .l3
  have wide := first .width
  rw [l3] at third
  rw [width] at wide
  exact ⟨s, made, first .l1, first .l2, third, wide, first .height⟩

end PlotArguments

end AccessLatency
