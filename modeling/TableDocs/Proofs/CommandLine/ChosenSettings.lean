import TableDocs.Proofs.CommandLine.Conclusion
import TableDocs.Proofs.Data.Value
import TableDocs.Proofs.Settings.Layers

/-!
# TableDocs — the settings of a run

On the way to a run settings are checked up to three times, each time after something was laid over
them: as a file, with the variables of the environment, and with the options of a command.

* **`extractSettings_eq_valid_iff`** — what the options of an extraction leave of loaded settings.
* **`runExtract_of_valid`** — an extraction reads its directory with these settings and no others.
* **`settings_layered`** — no check changes what was accepted before it, so that a run uses the
  settings of the file but for what a variable or an option names.
-/

namespace TableDocs.CommandLine

open TableDocs.Data
open TableDocs.Settings
open TableDocs.Validation

variable {settings : Settings} {choices : Choices} {chosen : Settings.Extract}

/-- What the options of an extraction leave of its settings: the number of workers and the dialect
are those of the options, where these name them. -/
inductive Chooses (before : Settings.Extract) (choices : Choices) : Settings.Extract → Prop
  | intro {workers : Nat} {dialect : Named Sql.Dialect.ofName?}
      (hworkers : Overlaid (asNatBetween 1 mostWorkers) before.workers choices.workers? workers)
      (hdialect : Overlaid (asNamed Sql.Dialect.ofName? dialectRefusal) before.dialect
        choices.dialect? dialect) :
      Chooses before choices { before with workers := workers, dialect := dialect }

theorem reads_overrides_iff {before : Settings.Extract} :
    Extract.Reads before choices.overrides chosen ↔ Chooses before choices chosen := by
  have hreads : Extract.Reads before choices.overrides chosen ↔ ∃ workers dialect,
      Overlaid (asNatBetween 1 mostWorkers) before.workers choices.workers? workers ∧
      Overlaid (asNamed Sql.Dialect.ofName? dialectRefusal) before.dialect choices.dialect?
        dialect ∧
      chosen = { before with workers := workers, dialect := dialect } := by
    rw [Choices.overrides]
    -- each option is given or not
    cases choices.workers? <;> cases choices.dialect? <;>
      exact Extract.reads_iff_overlaid rfl rfl rfl
  rw [hreads]
  constructor
  · rintro ⟨workers, dialect, hworkers, hdialect, rfl⟩
    exact .intro hworkers hdialect
  · rintro ⟨hworkers, hdialect⟩
    exact ⟨_, _, hworkers, hdialect, rfl⟩

theorem extractSettings_eq_valid_iff (h : settings.Accepted) :
    extractSettings settings choices.overrides = .valid chosen ↔
      Chooses settings.extract choices chosen := by
  rw [extractSettings, Extract.ofMembers_eq_valid_iff, (h.extract.reads_members _).append_iff,
    reads_overrides_iff]

/-- What was chosen is not chosen anew. -/
theorem extractSettings_chosen {overrides : List (String × Value)}
    (h : extractSettings settings overrides = .valid chosen) :
    extractSettings { settings with extract := chosen } [] = .valid chosen := by
  rw [extractSettings, Extract.ofMembers_eq_valid_iff] at h
  have haccepted : chosen.Accepted := h.accepted Extract.accepted_default
  rw [extractSettings, List.append_nil, Extract.ofMembers_eq_valid_iff]
  exact haccepted.reads_members _

/-- **An extraction uses the settings that its options leave.** Of the loaded settings it takes only
the form of the document besides. -/
theorem runExtract_of_valid (w : Files.Workspace) (s : Surroundings) (input output : String)
    {overrides : List (String × Value)}
    (h : extractSettings settings overrides = .valid chosen) :
    runExtract w s settings input output overrides =
      finishExtract w s settings.output input output
        (Extraction.extractDirectory w (.ofString input) chosen s.schedule s.libraries.tokenizers
          s.lookFaults) := by
  rw [runExtract, h]

theorem runExtract_of_invalid (w : Files.Workspace) (s : Surroundings) (input output : String)
    {overrides : List (String × Value)}
    (h : ∀ chosen, extractSettings settings overrides ≠ .valid chosen) :
    ∃ problems, runExtract w s settings input output overrides =
      ⟨.error (.invalidOptions problems), [], [], w.tree⟩ := by
  cases hchosen : extractSettings settings overrides with
  | valid chosen => exact absurd hchosen (h chosen)
  | invalid problems => exact ⟨problems, by rw [runExtract, hchosen]⟩

/-- **Settings are layered.** What a check accepts is read as itself, and a list of suffixes becomes
the suffixes of its texts that are not blank, in order and in the form that they keep. So the
settings of a file are those of its members, if their check accepts them, and a file is refused with
the problems of the check otherwise; what is refused in it is refused with all variables. Without
variables the settings of the file are loaded as they are; with variables nothing but the level and
the number of workers is replaced, each by a value that is allowed. An extraction reads its
directory with what was loaded, with nothing but the number of workers and the dialect of its
options in place of the loaded ones, and writes the collection of its report; or it fails and writes
nothing. -/
theorem settings_layered (w : Files.Workspace) (given : String) (env : Environment)
    (parseYaml : Yaml.Parser) :
    (∀ v settings, Settings.ofValue v = .valid settings →
      Settings.ofValue (.object settings.members) = .valid settings) ∧
    (∀ v extensions, asExtensions v = .valid extensions →
      asExtensions (.list (extensions.map .text)) = .valid extensions ∧
      (∀ e ∈ extensions, IsExtension e) ∧
      ∃ texts : List String, v = .list (texts.map .text) ∧
        extensions = (texts.filter fun text => Text.trim text ≠ "").map suffixFor) ∧
    (∀ path members, FileHolds w given env parseYaml path members →
      (∀ settings, ofMembers members = .valid settings →
        fileSettings w given env parseYaml = .ok settings ∧
        (env.logLevel = "" → env.workers = "" → load w given env parseYaml = .ok settings)) ∧
      (∀ problems, ofMembers members = .invalid problems →
        load w given env parseYaml = .error (.invalidFile path problems)) ∧
      (Refused members →
        ∃ problems, load w given env parseYaml = .error (.invalidFile path problems))) ∧
    (filePath? given env = none → fileSettings w given env parseYaml = .ok {}) ∧
    (env.logLevel = "" → env.workers = "" →
      load w given env parseYaml = fileSettings w given env parseYaml) ∧
    (∀ loaded, load w given env parseYaml = .ok loaded ↔
      ∃ settings level workers, fileSettings w given env parseYaml = .ok settings ∧
        Varied levelOf? settings.logging.level env.logLevel level ∧
        Varied workersOf? settings.extract.workers env.workers workers ∧
        loaded = { settings with
          extract := { settings.extract with workers := workers }
          logging := { settings.logging with level := level } }) ∧
    (∀ fault, fileSettings w given env parseYaml = .error fault →
      load w given env parseYaml = .error fault) ∧
    ∀ loaded, load w given env parseYaml = .ok loaded →
      (1 ≤ loaded.extract.workers ∧ loaded.extract.workers ≤ mostWorkers) ∧
      ∀ (choices : Choices) (s : Surroundings) (input output : String),
        (∀ chosen, Chooses loaded.extract choices chosen →
          extractSettings { loaded with extract := chosen } [] = .valid chosen ∧
          let extracted := Extraction.extractDirectory w (.ofString input) chosen s.schedule
            s.libraries.tokenizers s.lookFaults
          let done := runExtract w s loaded input output choices.overrides
          done = finishExtract w s loaded.output input output extracted ∧
          ∀ report, extracted.value = .ok report → s.Heard →
            (done.result, done.tree) =
              writeDocument w s output (report.collection.toJson loaded.output.indent)) ∧
        ((∀ chosen, ¬Chooses loaded.extract choices chosen) →
          ∃ problems, runExtract w s loaded input output choices.overrides =
            ⟨.error (.invalidOptions problems), [], [], w.tree⟩) := by
  refine ⟨fun _ _ => ofValue_members, ?_, ?_, fileSettings_of_none, load_eq_fileSettings,
    fun _ => load_eq_ok_iff, ?_, ?_⟩
  · intro v extensions h
    obtain ⟨texts, htexts, hextensions, hne⟩ := asExtensions_eq_valid_iff.mp h
    have hform : ∀ e ∈ extensions, IsExtension e := fun _ => isExtension_of_asExtensions h
    exact ⟨asExtensions_of_forall hne hform, hform, texts, htexts, hextensions⟩
  · intro path members hfile
    refine ⟨fun settings h => ?_, fun problems => load_of_invalid hfile, load_of_refused hfile⟩
    have hsettings : fileSettings w given env parseYaml = .ok settings := by
      rw [hfile.fileSettings_eq, h]
    exact ⟨hsettings, fun hlevel hworkers => (load_eq_fileSettings hlevel hworkers).trans hsettings⟩
  · intro fault h
    rw [load_eq, h, Except.bind]
  · intro loaded h
    -- loaded settings are accepted, and that is all the options are laid over
    have haccepted := accepted_of_load h
    refine ⟨⟨haccepted.extract.one_le_workers, haccepted.extract.workers_le⟩, ?_⟩
    intro choices s input output
    constructor
    · intro chosen hchosen
      have hvalid := (extractSettings_eq_valid_iff haccepted).mpr hchosen
      have hrun := runExtract_of_valid w s input output hvalid
      refine ⟨extractSettings_chosen hvalid, hrun, fun report hreport hheard => ?_⟩
      rw [hrun]
      exact finishExtract_of_heard hheard hreport
    · intro hnone
      refine runExtract_of_invalid w s input output fun chosen hvalid => ?_
      exact hnone chosen ((extractSettings_eq_valid_iff haccepted).mp hvalid)

/-! ### A file that asks for too many workers -/

def crowded : Files.Workspace where
  base := []
  tree := Files.Tree.empty.put ["c.yaml"] (.file "extract:\n  workers: 99\n".toUTF8.toList)

/-- A variable with a number that is allowed does not help; without the file it counts, and an
option takes its place. -/
theorem settings_layered_crowded :
    FileHolds crowded "c.yaml" { workers := "4" } Yaml.parse (.ofString "c.yaml")
      [("extract", .object [("workers", .int 99)])] ∧
    (∃ problems, load crowded "c.yaml" { workers := "4" } =
      .error (.invalidFile (.ofString "c.yaml") problems)) ∧
    load crowded "" { logLevel := "debug", workers := "4" } =
      .ok { extract := { workers := 4 }, logging := { level := .debug } } ∧
    Chooses { workers := 4 } { workers? := some (.int 8) } { workers := 8 } ∧
    extractSettings { extract := { workers := 8 }, logging := { level := .debug } } [] =
      .valid { workers := 8 } := by
  have hread : Yaml.parse "extract:\n  workers: 99\n" =
      .ok (.object [("extract", .object [("workers", .int 99)])]) := by
    decide +kernel
  have hfile : FileHolds crowded "c.yaml" { workers := "4" } Yaml.parse (.ofString "c.yaml")
      [("extract", .object [("workers", .int 99)])] :=
    ⟨by decide +kernel, by decide +kernel, _, _, by decide +kernel, hread, .inl rfl⟩
  have hrefused : Refused [("extract", .object [("workers", .int 99)])] :=
    .workers rfl rfl fun n hn => by
      obtain ⟨hint, -, hmost⟩ := asNatBetween_eq_valid_iff.mp hn
      have hn : (n : Int) = 99 := by simpa [asInt] using hint.symm
      rw [mostWorkers] at hmost
      omega
  have hchooses : Chooses { workers := 4 } { workers? := some (.int 8) } { workers := 8 } :=
    .intro (.given rfl) .kept
  obtain ⟨-, -, -, -, -, hload, -, hchosen⟩ :=
    settings_layered crowded "" { logLevel := "debug", workers := "4" } Yaml.parse
  have hloaded := (hload _).mpr
    ⟨{}, .debug, 4, rfl, .given (by decide) (by decide +kernel),
      .given (by decide) (by decide +kernel), rfl⟩
  have hextract := ((hchosen _ hloaded).2 { workers? := some (.int 8) } { time := "", unique := "" }
    "d" "o.json").1 _ hchooses
  obtain ⟨-, -, hcrowded, -⟩ := settings_layered crowded "c.yaml" { workers := "4" } Yaml.parse
  exact ⟨hfile, (hcrowded _ _ hfile).2.2 hrefused, hloaded, hchooses, hextract.1⟩

end TableDocs.CommandLine
