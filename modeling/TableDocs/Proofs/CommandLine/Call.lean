import TableDocs.CommandLine.Run
import TableDocs.Proofs.CommandLine.Conclusion
import TableDocs.Proofs.Extraction.ReadableSources

/-!
# TableDocs — what a call of the program leaves behind

A call reads arguments, settings and the files of its command, and only then does it write. So a
call either has all that it needs, which is a `Job`, or it changes nothing. This supposes that all
names of files are texts, since nobody cleans up behind a text that has no bytes.

* **`Command.collection?`**, **`Command.document`** — both commands read a collection and write it
  as a document.
* **`Command.run_cases`** — a command breaks off before it writes, or it concludes with its
  document.
* **`Job`** — what a call writes and where, with all that was read for it.
* **`Job.run_ending`** — a call with a job writes the whole document, or nothing has changed.
* **`after_eq`** — so a call leaves the files as they were or with the document of its job. Whatever
  holds of the files after several calls is derived from this.
* **`allOrNothing`** — the same, told by the exit code.
-/

namespace TableDocs.CommandLine

open TableDocs.Data
open TableDocs.Files

/-! ## Commands

A command ends with a result and a tree. The way out of the program adds what is printed and the
exit code, and it leaves the tree alone. -/

namespace Command

/-- The path that a command writes to. -/
def output : Command → String
  | .extract _ output _ => output
  | .render _ output _ => output

/-- The collection that a command reads: of the readable sources of a directory, or from a file. -/
def collection? (w : Workspace) (s : Surroundings) (settings : Settings) :
    Command → Option Collection
  | .extract input _ overrides =>
    match extractSettings settings overrides with
    | .valid chosen =>
      Extraction.readable? w (.ofString input) chosen s.libraries.tokenizers s.lookFaults
    | .invalid _ => none
  | .render input _ _ => (Collection.ofFile w (.ofString input) s.libraries.parseJson?).toOption

/-- What a command writes of a collection. -/
def document (settings : Settings) (c : Collection) : Command → String
  | .extract _ _ _ => c.toJson settings.output.indent
  | .render _ _ locale? => Markdown.render (locale?.getD settings.render.locale) c

/-- **What a command does**: it breaks off, because there is no collection or the console does not
take what it says, or it concludes with the document of its collection. -/
theorem run_cases (w : Workspace) (s : Surroundings) (settings : Settings) (command : Command) :
    (BreaksOff w (command.run w s settings) ∧
        (s.Heard → command.collection? w s settings = none)) ∨
      ∃ c, command.collection? w s settings = some c ∧
        Concludes s (command.run w s settings)
          (writeDocument w s command.output (command.document settings c)) := by
  cases command with
  | extract input output overrides =>
    rw [run, runExtract, collection?]
    cases extractSettings settings overrides with
    | invalid problems => exact .inl ⟨⟨⟨_, rfl⟩, rfl⟩, fun _ => rfl⟩
    | valid chosen =>
      -- the collection does not depend on what the run says on its way
      simp only [← Extraction.collection_extractDirectory w (.ofString input) chosen s.schedule]
      rcases finishExtract_cases w s settings.output input output
        (Extraction.extractDirectory w (.ofString input) chosen s.schedule s.libraries.tokenizers
          s.lookFaults) with ⟨hbreaks, hnone⟩ | ⟨report, hreport, hconcludes⟩
      · refine .inl ⟨hbreaks, fun hheard => ?_⟩
        obtain ⟨fault, herror⟩ := hnone hheard
        rw [herror]
        rfl
      · exact .inr ⟨report.collection, by rw [hreport]; rfl, hconcludes⟩
  | render input output locale? =>
    rw [run, runRender, collection?]
    cases Collection.ofFile w (.ofString input) s.libraries.parseJson? with
    | error fault => exact .inl ⟨⟨⟨_, rfl⟩, rfl⟩, fun _ => rfl⟩
    | ok c => exact .inr ⟨c, rfl, concludes_finish w s output _ _ _⟩

end Command

namespace Run

/-- Reporting the end of a command does not touch the tree. -/
theorem tree_ofCommand (logging : Settings.Logging) (time : String) (verbose : Bool)
    (done : CommandRun) : (ofCommand logging time verbose done).tree = done.tree := by
  rw [ofCommand]
  split <;> rfl

/-- The exit code is zero if the command had no fault. -/
theorem ending_ofCommand (logging : Settings.Logging) (time : String) (verbose : Bool)
    (done : CommandRun) :
    (ofCommand logging time verbose done).ending = .exit 0 ↔ done.result = .ok () := by
  rw [ofCommand]
  split <;> next hresult => simp [hresult]

end Run

/-! ## Calls and their jobs

A job is all that a call needs to succeed but for the write: arguments that can be read, settings, a
collection, and a place for the document. A call without a job changes nothing. -/

/-- A call of the program: its arguments, and what it finds besides the files. -/
structure Call where
  args : List String
  surroundings : Surroundings

/-- What a call writes and where, when its arguments and the files that it reads are in order. -/
structure Job (w : Workspace) (c : Call) where
  invocation : Invocation
  settings : Settings
  collection : Collection
  place : Place
  read_args : Invocation.read c.args = .ok invocation
  load_settings :
    Settings.load w invocation.settingsFile c.surroundings.environment
      c.surroundings.libraries.parseYaml = .ok settings
  layout_accepted : Log.Layout.refusal? settings.logging.layout = none
  collected : invocation.command.collection? w c.surroundings settings = some collection
  /-- The path of the document names a place for a file. -/
  canHold : w.CanHold (.ofString invocation.command.output) place

namespace Job

variable {w : Workspace} {c : Call}

/-- The text that is written. -/
def document (j : Job w c) : String :=
  j.invocation.command.document j.settings j.collection

/-- The files with the document in its place. -/
def written (j : Job w c) : Workspace :=
  w.withFile j.place (encodeUtf8 j.document)

end Job

namespace Call

/-- The run of the call in a workspace. -/
def run (c : Call) (w : Workspace) : Run :=
  CommandLine.run w c.surroundings c.args

/-- The files behind a call. -/
def after (w : Workspace) (c : Call) : Workspace :=
  { w with tree := (c.run w).tree }

/-- Where the temporary file of a call stands. -/
def temporary? (w : Workspace) (c : Call) : Option Place :=
  match Invocation.read c.args with
  | .ok i => some (w.temporaryPlace (.ofString i.command.output) c.surroundings.unique)
  | .error _ => none

/-- The temporary file of a call is told from all files that there are. -/
def Fresh (w : Workspace) (c : Call) : Prop :=
  ∀ place ∈ c.temporary? w, w.tree.get? place = none

instance (w : Workspace) (c : Call) : Decidable (c.Fresh w) :=
  inferInstanceAs (Decidable (∀ place ∈ c.temporary? w, w.tree.get? place = none))

end Call

section Calls

variable {w : Workspace} {c : Call}

theorem Call.Fresh.get? (h : c.Fresh w) {i : Invocation} (hargs : Invocation.read c.args = .ok i) :
    w.tree.get? (w.temporaryPlace (.ofString i.command.output) c.surroundings.unique) = none :=
  h _ (by rw [Call.temporary?, hargs]; rfl)

theorem result_writeOutput {s : Surroundings} {output text : String} :
    (writeOutput w s output text).1 = .ok () ↔
      (w.writeText (.ofString output) text s.unique s.writeFault 0).result = .ok () := by
  rw [writeOutput]
  cases (w.writeText (.ofString output) text s.unique s.writeFault 0).result <;>
    simp [Except.mapError]

/-- **How the write of a document ends**: it fails and nothing has changed, or the path names a
place for a file, which then holds the text. -/
theorem writeOutput_cases {s : Surroundings} {output : String} (text : String)
    (hfresh : w.tree.get? (w.temporaryPlace (.ofString output) s.unique) = none) :
    ((writeOutput w s output text).1 ≠ .ok () ∧ (writeOutput w s output text).2 = w.tree ∧
        ((∀ step, s.writeFault step = none) → ∀ place, ¬w.CanHold (.ofString output) place)) ∨
      ((writeOutput w s output text).1 = .ok () ∧ (∀ step, s.writeFault step = none) ∧
        ∃ place, w.CanHold (.ofString output) place ∧
          (writeOutput w s output text).2 = (w.withFile place (encodeUtf8 text)).tree) := by
  rw [Ne, result_writeOutput]
  rcases Workspace.writeText_ending text 0 hfresh with
    ⟨⟨fault, herror⟩, hfinal⟩ | ⟨hok, hfaults, hhold, hfinal⟩
  · refine .inl ⟨fun hok => absurd (herror.symm.trans hok) (by simp), hfinal, ?_⟩
    intro hfaults place hhold
    -- were there a place for the file and no fault from elsewhere, it would have been written
    have hok := @Workspace.writeText_ok _ _ s.unique _ text 0 hfaults
      (hhold.targetPlace_eq.symm ▸ hhold)
    exact absurd (herror.symm.trans hok) (by simp)
  · exact .inr ⟨hok, hfaults, _, hhold, hfinal⟩

section Prepared

variable {i : Invocation} {settings : Settings} (hargs : Invocation.read c.args = .ok i)
    (hsettings : Settings.load w i.settingsFile c.surroundings.environment
      c.surroundings.libraries.parseYaml = .ok settings)
    (hlayout : Log.Layout.refusal? settings.logging.layout = none)

include hargs hsettings hlayout

theorem run_eq_ofCommand :
    c.run w = .ofCommand settings.logging c.surroundings.time i.verbose
      (i.command.run w c.surroundings settings) := by
  simp only [Call.run, run, hargs, Invocation.run, hsettings, hlayout]

/-- A command that breaks off before its write leaves the tree alone and fails. -/
theorem run_of_breaksOff (h : BreaksOff w (i.command.run w c.surroundings settings)) :
    (c.run w).ending ≠ .exit 0 ∧ (c.run w).tree = w.tree := by
  obtain ⟨⟨fault, hresult⟩, htree⟩ := h
  rw [run_eq_ofCommand hargs hsettings hlayout, Ne, Run.ending_ofCommand, Run.tree_ofCommand,
    hresult]
  exact ⟨by simp, htree⟩

/-- **How a command with a collection ends**: it fails and changes nothing, or the path of its
output names a place for a file, which then holds the document. In this case it succeeds as long as
the console takes what it says. -/
theorem run_of_collection (hfresh : c.Fresh w) (hencodes : c.surroundings.Encodes)
    {collection : Collection}
    (hcollection : i.command.collection? w c.surroundings settings = some collection) :
    ((c.run w).ending ≠ .exit 0 ∧ (c.run w).tree = w.tree ∧
        (c.surroundings.Heard → (∀ step, c.surroundings.writeFault step = none) →
          ∀ place, ¬w.CanHold (.ofString i.command.output) place)) ∨
      ∃ place, w.CanHold (.ofString i.command.output) place ∧
        (∀ step, c.surroundings.writeFault step = none) ∧
        (c.run w).tree =
          (w.withFile place (encodeUtf8 (i.command.document settings collection))).tree ∧
        (c.surroundings.Heard → (c.run w).ending = .exit 0) := by
  -- the command breaks off before it writes, or it writes the document of the collection
  rcases Command.run_cases w c.surroundings settings i.command with
    ⟨hbreaks, hnone⟩ | ⟨read, hread, hconcludes⟩
  · obtain ⟨hexit, htree⟩ := run_of_breaksOff hargs hsettings hlayout hbreaks
    refine .inl ⟨hexit, htree, fun hheard => ?_⟩
    exact absurd (hcollection.symm.trans (hnone hheard)) (by simp)
  · cases hcollection.symm.trans hread
    rw [writeDocument_of_encodes hencodes] at hconcludes
    rw [run_eq_ofCommand hargs hsettings hlayout, Ne, Run.ending_ofCommand, Run.tree_ofCommand,
      hconcludes.tree_eq]
    rcases writeOutput_cases (i.command.document settings collection) (hfresh.get? hargs) with
      ⟨hfailed, htree, hnone⟩ | ⟨hok, hfaults, place, hhold, htree⟩
    · exact .inl ⟨fun hdone => hfailed (hconcludes.written_ok hdone), htree, fun _ => hnone⟩
    · exact .inr ⟨place, hhold, hfaults, htree, fun hheard =>
        (hconcludes.of_heard hheard).trans hok⟩

end Prepared

/-- **A call with a job writes the document**, or it fails and changes nothing. -/
theorem Job.run_ending (j : Job w c) (hfresh : c.Fresh w) (hencodes : c.surroundings.Encodes) :
    ((c.run w).ending ≠ .exit 0 ∧ (c.run w).tree = w.tree ∧
        (c.surroundings.Heard → ¬∀ step, c.surroundings.writeFault step = none)) ∨
      ((c.run w).tree = j.written.tree ∧ (∀ step, c.surroundings.writeFault step = none) ∧
        (c.surroundings.Heard → (c.run w).ending = .exit 0)) := by
  rcases run_of_collection j.read_args j.load_settings j.layout_accepted hfresh hencodes
    j.collected with ⟨hexit, htree, hnone⟩ | ⟨place, hhold, hfaults, htree, hheard⟩
  · exact .inl ⟨hexit, htree, fun hheard hfaults => hnone hheard hfaults j.place j.canHold⟩
  · obtain rfl : place = j.place := hhold.targetPlace_eq.symm.trans j.canHold.targetPlace_eq
    exact .inr ⟨htree, hfaults, hheard⟩

/-- **A call without a job changes nothing.** -/
theorem run_of_no_job (hjob : ¬Nonempty (Job w c)) (hfresh : c.Fresh w)
    (hencodes : c.surroundings.Encodes) :
    (c.run w).ending ≠ .exit 0 ∧ (c.run w).tree = w.tree := by
  -- the call stops at the first of these that fails; if none does, all that is missing to a job is
  -- the place
  cases hargs : Invocation.read c.args with
  | error stop => simp [Call.run, run, hargs]
  | ok i =>
    cases hsettings : Settings.load w i.settingsFile c.surroundings.environment
        c.surroundings.libraries.parseYaml with
    | error fault => simp [Call.run, run, hargs, Invocation.run, hsettings]
    | ok settings =>
      cases hlayout : Log.Layout.refusal? settings.logging.layout with
      | some message => simp [Call.run, run, hargs, Invocation.run, hsettings, hlayout]
      | none =>
        rcases Command.run_cases w c.surroundings settings i.command with
          ⟨hbreaks, -⟩ | ⟨collection, hcollection, -⟩
        · exact run_of_breaksOff hargs hsettings hlayout hbreaks
        · rcases run_of_collection hargs hsettings hlayout hfresh hencodes hcollection with
            ⟨hexit, htree, -⟩ | ⟨place, hhold, -, -, -⟩
          · exact ⟨hexit, htree⟩
          -- with a place there would be a job
          · have job : Job w c :=
              ⟨i, settings, collection, place, hargs, hsettings, hlayout, hcollection, hhold⟩
            exact absurd ⟨job⟩ hjob

/-- **A call leaves the files as they were, or with the document of its job.** -/
theorem after_eq (hfresh : c.Fresh w) (hencodes : c.surroundings.Encodes) :
    c.after w = w ∨ ∃ j : Job w c, c.after w = j.written := by
  -- a call without a job breaks off before its write
  by_cases hjob : Nonempty (Job w c)
  · obtain ⟨j⟩ := hjob
    rcases j.run_ending hfresh hencodes with ⟨-, htree, -⟩ | ⟨htree, -, -⟩
    · exact .inl (by rw [Call.after, htree])
    · exact .inr ⟨j, by rw [Call.after, htree, Job.written, Workspace.withFile]⟩
  · exact .inl (by rw [Call.after, (run_of_no_job hjob hfresh hencodes).2])

/-- A call that succeeds did its job. -/
theorem Job.after_eq_written (j : Job w c) (hfresh : c.Fresh w)
    (hencodes : c.surroundings.Encodes) (hexit : (c.run w).ending = .exit 0) :
    c.after w = j.written := by
  rcases j.run_ending hfresh hencodes with ⟨hfailed, -, -⟩ | ⟨htree, -, -⟩
  · exact absurd hexit hfailed
  · rw [Call.after, htree, Job.written, Workspace.withFile]

/-! ## All or nothing

The exit code tells whether a call has written its document, as long as the console takes what the
call says. Otherwise it may fail behind the write. Even then there is nothing but the document. -/

/-- A call writes its document or changes nothing, and its exit code tells which. -/
structure AllOrNothing (w : Workspace) (c : Call) : Prop where
  success : c.surroundings.Heard → ((c.run w).ending = .exit 0 ↔
    Nonempty (Job w c) ∧ ∀ step, c.surroundings.writeFault step = none)
  unchanged : c.surroundings.Heard → (c.run w).ending ≠ .exit 0 → (c.run w).tree = w.tree
  written : (c.run w).ending = .exit 0 → Nonempty (Job w c) ∧ ∀ (j : Job w c) (place : Place),
    (c.run w).tree.get? place =
      if place = j.place then some (.file (encodeUtf8 j.document)) else w.tree.get? place
  either : (c.run w).tree = w.tree ∨ ∃ j : Job w c, ∀ place, (c.run w).tree.get? place =
    if place = j.place then some (.file (encodeUtf8 j.document)) else w.tree.get? place
  clean : ∀ place ∈ c.temporary? w, (c.run w).tree.get? place = none

/-- And it had a job to do. -/
theorem nonempty_job_of_exit (hfresh : c.Fresh w) (hencodes : c.surroundings.Encodes)
    (hexit : (c.run w).ending = .exit 0) : Nonempty (Job w c) := by
  by_contra hjob
  exact (run_of_no_job hjob hfresh hencodes).1 hexit

/-- A call succeeds if it has a job and no step of its write fails. -/
theorem success_iff (hfresh : c.Fresh w) (hencodes : c.surroundings.Encodes)
    (hheard : c.surroundings.Heard) : (c.run w).ending = .exit 0 ↔
      Nonempty (Job w c) ∧ ∀ step, c.surroundings.writeFault step = none := by
  constructor
  · intro hexit
    obtain ⟨j⟩ := nonempty_job_of_exit hfresh hencodes hexit
    rcases j.run_ending hfresh hencodes with ⟨hfailed, -, -⟩ | ⟨-, hfaults, -⟩
    · exact absurd hexit hfailed
    · exact ⟨⟨j⟩, hfaults⟩
  · rintro ⟨⟨j⟩, hfaults⟩
    rcases j.run_ending hfresh hencodes with ⟨-, -, hnone⟩ | ⟨-, -, hexit⟩
    · exact absurd hfaults (hnone hheard)
    · exact hexit hheard

/-- The document of a job stands in its place, and nothing else is new. -/
theorem Job.get?_of_after {j : Job w c} (h : c.after w = j.written) (place : Place) :
    (c.run w).tree.get? place =
      if place = j.place then some (.file (encodeUtf8 j.document)) else w.tree.get? place := by
  rw [show (c.run w).tree = j.written.tree from congrArg Workspace.tree h, Job.written]
  exact j.canHold.get?_withFile _ place

/-- **Every call is all or nothing.** -/
theorem allOrNothing (hfresh : c.Fresh w) (hencodes : c.surroundings.Encodes) :
    AllOrNothing w c where
  success := success_iff hfresh hencodes
  unchanged := by
    intro hheard hfailed
    rcases after_eq hfresh hencodes with hsame | ⟨j, -⟩
    · exact congrArg Workspace.tree hsame
    · rcases j.run_ending hfresh hencodes with ⟨-, htree, -⟩ | ⟨-, -, hexit⟩
      · exact htree
      · exact absurd (hexit hheard) hfailed
  written := by
    intro hexit
    refine ⟨nonempty_job_of_exit hfresh hencodes hexit, fun j => ?_⟩
    exact Job.get?_of_after (j.after_eq_written hfresh hencodes hexit)
  either := by
    rcases after_eq hfresh hencodes with hsame | ⟨j, hwritten⟩
    · exact .inl (congrArg Workspace.tree hsame)
    · exact .inr ⟨j, Job.get?_of_after hwritten⟩
  clean := by
    intro place hplace
    rcases after_eq hfresh hencodes with hsame | ⟨j, hwritten⟩
    · rw [show (c.run w).tree = w.tree from congrArg Workspace.tree hsame]
      exact hfresh place hplace
    · rw [Job.get?_of_after hwritten]
      rw [Call.temporary?, j.read_args] at hplace
      -- a temporary file of its own is gone again, and the document stands elsewhere
      cases hplace
      rw [if_neg (j.canHold.temporaryPlace_ne _)]
      exact hfresh.get? j.read_args

end Calls

end TableDocs.CommandLine
