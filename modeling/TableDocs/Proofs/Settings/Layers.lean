import TableDocs.Proofs.Settings.Accepted
import TableDocs.Settings.Loading

/-!
# TableDocs — settings in layers

Variables of the environment are laid over the settings of a file, which have been checked before,
and the result is checked again. Neither check changes anything but what a variable names.

* **`FileHolds`**, **`FileHolds.fileSettings_eq`** — a file that holds members gives the settings of
  these members, or the problems that their check finds.
* **`load_eq`** — the variables are laid over what the file gives.
* **`Varied`** — what a variable makes of a setting.
* **`withVariables_eq_ok_iff`** — which settings there are with variables over others.
* **`Refused`** — a value that its own check refuses, which no variable mends.
-/

namespace TableDocs.Settings

open TableDocs.Data
open TableDocs.Validation

variable {w : Files.Workspace} {given : String} {env : Environment} {parseYaml : Yaml.Parser}
  {s s' : Settings}

/-! ## The file

A path names the file, or there is none. In each way in which a file can fail, loading fails, so
settings that were loaded come from members that passed their checks. -/

theorem load_eq (w : Files.Workspace) (given : String) (env : Environment)
    (parseYaml : Yaml.Parser) :
    load w given env parseYaml =
      (fileSettings w given env parseYaml).bind fun s => s.withVariables env := by
  rw [load]
  cases fileSettings w given env parseYaml <;> rfl

/-- Without a file the settings are the usual ones. -/
theorem fileSettings_of_none (h : filePath? given env = none) :
    fileSettings w given env parseYaml = .ok {} := by
  rw [fileSettings, h]

/-- A document that is an object is checked, and its problems are reported for the path of the file.
-/
theorem ofDocument_object (path : Files.Path) (members : List (String × Value)) :
    ofDocument path (.object members) =
      match ofMembers members with
      | .valid s => .ok s
      | .invalid problems => .error (.invalidFile path problems) :=
  rfl

theorem ofDocument_object_eq_ok_iff {path : Files.Path} {members : List (String × Value)} :
    ofDocument path (.object members) = .ok s ↔ ofMembers members = .valid s := by
  rw [ofDocument_object]
  cases ofMembers members <;> simp

/-- Settings of a document are accepted; an empty document gives the usual ones. -/
theorem accepted_of_ofDocument {path : Files.Path} {v : Value} (h : ofDocument path v = .ok s) :
    s.Accepted := by
  cases v with
  | object members => exact accepted_of_ofMembers (ofDocument_object_eq_ok_iff.mp h)
  | null =>
    have hempty : ofDocument path (.object []) = .ok s := h
    exact accepted_of_ofMembers (ofDocument_object_eq_ok_iff.mp hempty)
  | _ => exact absurd h (by simp [ofDocument])

/-- So are those of a file that can be read. -/
theorem accepted_of_ofFile {path : Files.Path} (h : ofFile w path parseYaml = .ok s) :
    s.Accepted := by
  rw [ofFile] at h
  split at h
  · exact absurd h (by simp)
  · split at h
    · exact absurd h (by simp)
    · split at h
      · exact absurd h (by simp)
      · exact accepted_of_ofDocument h

/-- And those that there are without a file. -/
theorem accepted_of_fileSettings (h : fileSettings w given env parseYaml = .ok s) :
    s.Accepted := by
  rw [fileSettings] at h
  split at h
  · exact accepted_of_ofFile h
  · obtain rfl := Except.ok.inj h
    exact ⟨Extract.accepted_default, by decide⟩

/-- The settings come from a file that holds members. One whose document is empty holds none. -/
structure FileHolds (w : Files.Workspace) (given : String) (env : Environment)
    (parseYaml : Yaml.Parser) (path : Files.Path) (members : List (String × Value)) : Prop where
  filePath?_eq : filePath? given env = some path
  isPresent : w.isPresent path = true
  read : ∃ text v, w.readText .utf8 path = .ok text ∧ parseYaml text = .ok v ∧
    (v = .object members ∨ v = .null ∧ members = [])

/-- **What a file holds is checked**, and nothing else is done to it. -/
theorem FileHolds.fileSettings_eq {path : Files.Path} {members : List (String × Value)}
    (h : FileHolds w given env parseYaml path members) :
    fileSettings w given env parseYaml =
      match ofMembers members with
      | .valid s => .ok s
      | .invalid problems => .error (.invalidFile path problems) := by
  obtain ⟨text, v, htext, hyaml, hv⟩ := h.read
  -- an empty document counts as an object without members
  have hdocument : ofDocument path v = ofDocument path (.object members) := by
    rcases hv with rfl | ⟨rfl, rfl⟩ <;> rfl
  rw [fileSettings, h.filePath?_eq, ← ofDocument_object, ← hdocument]
  show ofFile w path parseYaml = _
  rw [ofFile, h.isPresent, htext]
  simp [hyaml]

/-- A file that no check accepts gives no settings, whatever the variables say. -/
theorem load_of_invalid {path : Files.Path} {members : List (String × Value)}
    (hfile : FileHolds w given env parseYaml path members) {problems : List Problem}
    (h : ofMembers members = .invalid problems) :
    load w given env parseYaml = .error (.invalidFile path problems) := by
  rw [load_eq, hfile.fileSettings_eq, h]
  rfl

/-! ## Overrides

The settings are written out, the members of the variables are put behind them, and all of it is
checked again. Since settings that are accepted are read as themselves, the check finds what the
variables say over what was there. -/

/-- The check of both layers leaves output and rendering alone. -/
theorem overridden_eq_valid_iff (h : s.Accepted) {extract logging : List (String × Value)} :
    s.overridden extract logging = .valid s' ↔
      Extract.Reads s.extract extract s'.extract ∧ s'.output = s.output ∧ s'.render = s.render ∧
        Logging.Reads s.logging logging s'.logging := by
  rw [overridden, ofMembers_eq_valid_iff, group_of_member? rfl, group_of_member? rfl,
    group_of_member? rfl, group_of_member? rfl, Extract.ofMembers_eq_valid_iff,
    (h.extract.reads_members _).append_iff, Output.ofMembers_members h.indent_le,
    Render.ofMembers_members, Logging.ofMembers_eq_valid_iff,
    (s.logging.reads_members _).append_iff]
  simp only [Checked.valid.injEq, eq_comm]

/-! ## Variables

A variable that is not set has the empty text, and then it lays no member over the settings. Any
other text has to stand for a value. -/

/-- A setting after a variable has been laid over it: the same when the variable is empty, or else
what its text stands for. -/
inductive Varied {α : Type} (value? : String → Option α) (before : α) : String → α → Prop
  | kept : Varied value? before "" before
  | given {text : String} {a : α} (hne : text ≠ "") (h : value? text = some a) :
      Varied value? before text a

/-- The number of workers that a text stands for, if it is one that is allowed. -/
def workersOf? (text : String) : Option Nat :=
  (Text.Integer.parseDecimal? text).bind fun n =>
    if 1 ≤ n ∧ n ≤ mostWorkers then some n.toNat else none

/-- The level that a text stands for, in any letter case. -/
def levelOf? (text : String) : Option Log.Level :=
  Log.Level.ofName? (Text.upper text)

section

variable {α : Type} {value? : String → Option α} {before a : α} {text : String}

/-- Without a variable the setting is kept. -/
theorem varied_empty_iff : Varied value? before "" a ↔ a = before := by
  constructor
  · intro h
    cases h with
    | kept => rfl
    | given hne => exact absurd rfl hne
  · rintro rfl
    exact .kept

/-- What holds of the setting before and of all values of texts holds behind the variable. -/
theorem Varied.holds {P : α → Prop} (h : Varied value? before text a) (hbefore : P before)
    (hgiven : ∀ text a, value? text = some a → P a) : P a := by
  cases h with
  | kept => exact hbefore
  | given _ h => exact hgiven _ _ h

/-- With a variable the setting is what its text stands for. -/
theorem varied_iff (hne : text ≠ "") : Varied value? before text a ↔ value? text = some a := by
  constructor
  · intro h
    cases h with
    | kept => exact absurd rfl hne
    | given _ h => exact h
  · exact .given hne

end

/-- The member that the level of logging is overridden by. -/
theorem reads_overrideText_iff {s s' : Logging} {text : String} :
    Logging.Reads s (overrideText "level" text) s' ↔
      ∃ level, Varied levelOf? s.level text level ∧ s' = { s with level := level } := by
  by_cases hempty : text = ""
  · subst hempty
    have hnone : overrideText "level" "" = [] := rfl
    rw [hnone, Logging.reads_iff_overlaid rfl]
    simp only [varied_empty_iff]
    exact exists_congr fun _ => and_congr_left' overlaid_none_iff
  · have hsome : overrideText "level" text = [("level", .text text)] := by
      rw [overrideText, if_neg (by simpa using hempty)]
    rw [hsome, Logging.reads_iff_overlaid rfl]
    simp only [varied_iff hempty]
    exact exists_congr fun _ =>
      and_congr_left' (overlaid_some_iff.trans asChoice_text_eq_valid_iff)

/-- A text stands for a number of workers if that number passes the check of the setting. -/
theorem workersOf?_eq_some_iff {text : String} {n : Nat} : workersOf? text = some n ↔
    ∃ m : Int, Text.Integer.parseDecimal? text = some m ∧
      asNatBetween 1 mostWorkers (.int m) = .valid n := by
  simp only [workersOf?, Option.bind_eq_some_iff, asNatBetween_eq_valid_iff]
  refine exists_congr fun m => and_congr_right fun _ => ?_
  have hint : asInt (.int m) = .valid (n : Int) ↔ m = n := by simp [asInt]
  rw [hint]
  constructor
  · intro h
    split at h
    · obtain rfl := Option.some.inj h
      omega
    · exact absurd h (by simp)
  · rintro ⟨rfl, hleast, hmost⟩
    rw [if_pos (by omega), Int.toNat_natCast]

/-- The member that the number of workers is overridden by. Its text may be no number at all. -/
theorem reads_overrideWorkers_iff {s s' : Extract} {text : String} :
    (∃ members, overrideWorkers text = .ok members ∧ Extract.Reads s members s') ↔
      ∃ workers, Varied workersOf? s.workers text workers ∧ s' = { s with workers := workers } := by
  -- an empty text is as good as none
  by_cases hempty : text = ""
  · subst hempty
    have hnone : overrideWorkers "" = .ok [] := rfl
    simp only [hnone, Except.ok.injEq, exists_eq_left', varied_empty_iff]
    rw [Extract.reads_iff_overlaid_workers rfl rfl rfl rfl]
    exact exists_congr fun _ => and_congr_left' overlaid_none_iff
  · simp only [varied_iff hempty, workersOf?_eq_some_iff]
    rw [overrideWorkers, if_neg (by simpa using hempty)]
    cases Text.Integer.parseDecimal? text with
    | none => simp
    | some m =>
      simp only [Except.ok.injEq, exists_eq_left', Option.some.injEq]
      rw [Extract.reads_iff_overlaid_workers rfl rfl rfl rfl]
      exact exists_congr fun _ => and_congr_left' overlaid_some_iff

/-- **Variables over settings** replace the level and the number of workers and nothing else; each
has to stand for a value that is allowed. -/
theorem withVariables_eq_ok_iff (h : s.Accepted) : s.withVariables env = .ok s' ↔
    ∃ level workers, Varied levelOf? s.logging.level env.logLevel level ∧
      Varied workersOf? s.extract.workers env.workers workers ∧
      s' = { s with
        extract := { s.extract with workers := workers }
        logging := { s.logging with level := level } } := by
  -- the variables give settings if they give members and these pass their checks
  have hover : s.withVariables env = .ok s' ↔ ∃ members, overrideWorkers env.workers = .ok members ∧
      s.overridden members (overrideText "level" env.logLevel) = .valid s' := by
    rw [withVariables]
    cases overrideWorkers env.workers with
    | error fault => simp
    | ok members =>
      simp only [Except.ok.injEq, exists_eq_left']
      cases s.overridden members (overrideText "level" env.logLevel) <;> simp
  simp only [hover, overridden_eq_valid_iff h, reads_overrideText_iff]
  constructor
  · rintro ⟨members, hmembers, hextract, houtput, hrender, level, hlevel, hlogging⟩
    obtain ⟨workers, hworkers, hextract⟩ :=
      reads_overrideWorkers_iff.mp ⟨members, hmembers, hextract⟩
    refine ⟨level, workers, hlevel, hworkers, ?_⟩
    rw [← hextract, ← hlogging, ← houtput, ← hrender]
  · rintro ⟨level, workers, hlevel, hworkers, rfl⟩
    obtain ⟨members, hmembers, hextract⟩ := reads_overrideWorkers_iff.mpr ⟨workers, hworkers, rfl⟩
    exact ⟨members, hmembers, hextract, rfl, rfl, level, hlevel, rfl⟩

/-! ## Layers

Both layers together: the file decides about everything, and then the variables about the level and
the workers. -/

/-- **Settings are loaded** just when those of the file are and each variable stands for a value
that is allowed; the variables replace the level and the number of workers and nothing else. -/
theorem load_eq_ok_iff : load w given env parseYaml = .ok s' ↔
    ∃ s level workers, fileSettings w given env parseYaml = .ok s ∧
      Varied levelOf? s.logging.level env.logLevel level ∧
      Varied workersOf? s.extract.workers env.workers workers ∧
      s' = { s with
        extract := { s.extract with workers := workers }
        logging := { s.logging with level := level } } := by
  rw [load_eq]
  cases hfile : fileSettings w given env parseYaml with
  | error fault => simp [Except.bind]
  | ok s =>
    simp only [Except.bind, withVariables_eq_ok_iff (accepted_of_fileSettings hfile),
      Except.ok.injEq, exists_and_left, exists_eq_left']

/-- Settings that were loaded are accepted, so they can be overridden again. -/
theorem accepted_of_load (h : load w given env parseYaml = .ok s) : s.Accepted := by
  obtain ⟨s, level, workers, hfile, -, hworkers, rfl⟩ := load_eq_ok_iff.mp h
  have hs := accepted_of_fileSettings hfile
  -- the number of workers is that of the file or one that a variable was allowed to give
  have hallowed : 1 ≤ workers ∧ workers ≤ mostWorkers := by
    refine hworkers.holds (P := fun n => 1 ≤ n ∧ n ≤ mostWorkers)
      ⟨hs.extract.one_le_workers, hs.extract.workers_le⟩ fun text n hn => ?_
    obtain ⟨_, -, hbetween⟩ := workersOf?_eq_some_iff.mp hn
    exact (asNatBetween_eq_valid_iff.mp hbetween).2
  exact ⟨⟨hs.extract.extensions_ne_nil, hs.extract.isExtension, hallowed.1, hallowed.2⟩,
    hs.indent_le⟩

/-- Without variables the settings are those of the file. -/
theorem load_eq_fileSettings (hlevel : env.logLevel = "") (hworkers : env.workers = "") :
    load w given env parseYaml = fileSettings w given env parseYaml := by
  cases hfile : fileSettings w given env parseYaml with
  | error fault => rw [load_eq, hfile, Except.bind]
  | ok s =>
    rw [load_eq_ok_iff, hlevel, hworkers]
    exact ⟨s, _, _, hfile, .kept, .kept, rfl⟩

/-! ## Values that are refused

The file is checked before any variable is laid over it. A variable that would replace a bad value
comes too late. -/

/-- A setting that may be overridden has a value that its own check refuses. -/
inductive Refused (members : List (String × Value)) : Prop
  | workers {inner : List (String × Value)} {v : Value}
      (hgroup : Value.member? members "extract" = some (.object inner))
      (hv : Value.member? inner "workers" = some v)
      (h : ∀ n, asNatBetween 1 mostWorkers v ≠ .valid n)
  | dialect {inner : List (String × Value)} {v : Value}
      (hgroup : Value.member? members "extract" = some (.object inner))
      (hv : Value.member? inner "dialect" = some v)
      (h : ∀ n, asNamed Sql.Dialect.ofName? dialectRefusal v ≠ .valid n)
  | level {inner : List (String × Value)} {v : Value}
      (hgroup : Value.member? members "logging" = some (.object inner))
      (hv : Value.member? inner "level" = some v)
      (h : ∀ level, asLevel v ≠ .valid level)

/-- Members with such a value do not pass their checks. The cases are the settings that may be
overridden. -/
theorem Refused.ofMembers_ne_valid {members : List (String × Value)} (h : Refused members) :
    ofMembers members ≠ .valid s := by
  intro hvalid
  obtain ⟨hextract, -, -, hlogging⟩ := ofMembers_eq_valid_iff.mp hvalid
  -- each refusal names a member that the settings would have been read from
  cases h with
  | workers hgroup hv h =>
    rw [group_of_member? hgroup, Extract.ofMembers_eq_valid_iff] at hextract
    have hworkers := optional_eq_valid_iff_overlaid.mp hextract.workers
    rw [hv, overlaid_some_iff] at hworkers
    exact h _ hworkers
  | dialect hgroup hv h =>
    rw [group_of_member? hgroup, Extract.ofMembers_eq_valid_iff] at hextract
    have hdialect := optional_eq_valid_iff_overlaid.mp hextract.dialect
    rw [hv, overlaid_some_iff] at hdialect
    exact h _ hdialect
  | level hgroup hv h =>
    rw [group_of_member? hgroup, Logging.ofMembers_eq_valid_iff] at hlogging
    have hlevel := optional_eq_valid_iff_overlaid.mp hlogging.level
    rw [hv, overlaid_some_iff] at hlevel
    exact h _ hlevel

/-- **No variable mends a value that is refused.** -/
theorem load_of_refused {path : Files.Path} {members : List (String × Value)}
    (hfile : FileHolds w given env parseYaml path members) (h : Refused members) :
    ∃ problems, load w given env parseYaml = .error (.invalidFile path problems) := by
  cases hmembers : ofMembers members with
  | valid s => exact absurd hmembers h.ofMembers_ne_valid
  | invalid problems => exact ⟨problems, load_of_invalid hfile hmembers⟩

end TableDocs.Settings
