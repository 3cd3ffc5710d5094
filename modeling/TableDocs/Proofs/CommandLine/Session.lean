import TableDocs.Proofs.Collection.WrittenFile
import TableDocs.Proofs.CommandLine.Call

/-!
# TableDocs — calls that follow each other

The files that one call leaves are what the next one reads. Each call keeps what the following ones
rely on, so that a statement about one call becomes one about every call of a session.

* **`afterCalls_induction`** — what each call keeps, a session keeps.
* **`Job.readBack`** — a collection that was written is read back as it was, as long as nothing else
  is written in its place.
* **`Job.again`** — a call that does not read what it writes has the same job once more.
* **`session_documents`** — what holds of every call of a session.
-/

namespace TableDocs

open TableDocs.Files

/-! ## What a written file does not change

A call reads the file of its settings and its input. If neither is the file that was written, both
are read as before. -/

/-- Settings are told by the file that their path leads to. -/
theorem Settings.ofFile_congr {w w' : Workspace} {path : Path} (parseYaml : Yaml.Parser)
    (h : w'.find path = w.find path) : ofFile w' path parseYaml = ofFile w path parseYaml := by
  have hpresent : w'.isPresent path = w.isPresent path := by
    rw [Workspace.isPresent, Workspace.isPresent, h]
  rw [ofFile, ofFile, hpresent, Workspace.readText_congr h]

/-- So is a collection. -/
theorem Collection.ofFile_congr {w w' : Workspace} {path : Path} (parse? : Json.Parser)
    (h : w'.find path = w.find path) : ofFile w' path parse? = ofFile w path parse? := by
  rw [ofFile, ofFile, Workspace.readText_congr h]

section Writing

variable {w : Workspace} {p : Path} {target : Place}

/-- Settings are loaded as before, unless their file was written. -/
theorem Settings.load_withFile (hhold : w.CanHold p target) (bytes : List UInt8) {given : String}
    {environment : Environment} {parseYaml : Yaml.Parser} {settings : Settings}
    (hapart : ∀ path, filePath? given environment = some path → ∀ e,
      w.find path ≠ .ok (target, e))
    (hload : load w given environment parseYaml = .ok settings) :
    load (w.withFile target bytes) given environment parseYaml = .ok settings := by
  rw [load, fileSettings] at hload ⊢
  cases hpath : filePath? given environment with
  | none =>
    rw [hpath] at hload
    exact hload
  | some path =>
    simp only [hpath] at hload ⊢
    cases hfind : w.find path with
    | error fault =>
      -- the settings were loaded, so their file was found
      have hmissing : ofFile w path parseYaml = .error (.missingFile path) := by
        simp [ofFile, Workspace.isPresent, hfind]
      rw [hmissing] at hload
      exact absurd hload (by simp)
    | ok found =>
      obtain ⟨place, e⟩ := found
      have hplace : place ≠ target := by
        rintro rfl
        exact hapart path hpath e hfind
      -- it is not the document, so the same file is found again
      have hsame : (w.withFile target bytes).find path = w.find path :=
        ((hhold.find_withFile_iff bytes hplace).mpr hfind).trans hfind.symm
      rw [ofFile_congr parseYaml hsame]
      exact hload

/-- A collection is read as before, unless its file was written. -/
theorem Collection.ofFile_withFile (hhold : w.CanHold p target) (bytes : List UInt8) {path : Path}
    {parse? : Json.Parser} {c : Collection} (hapart : ∀ e, w.find path ≠ .ok (target, e))
    (hread : ofFile w path parse? = .ok c) :
    ofFile (w.withFile target bytes) path parse? = .ok c := by
  cases hfind : w.find path with
  | error fault =>
    rw [ofFile, Workspace.readText, Workspace.readBytes, hfind] at hread
    cases fault <;> simp at hread
  | ok found =>
    obtain ⟨place, e⟩ := found
    -- the path leads to another file than the one that was written
    have hplace : place ≠ target := by
      rintro rfl
      exact hapart e hfind
    have hsame : (w.withFile target bytes).find path = w.find path :=
      ((hhold.find_withFile_iff bytes hplace).mpr hfind).trans hfind.symm
    rw [ofFile_congr parse? hsame]
    exact hread

end Writing

namespace CommandLine

/-! ## Doing a job again

A call that did its job is made again, on the tree that it left. It reads the same settings and the
same input, so it has the same job. -/

/-- A command reads no file at a place. -/
def Command.ReadsApart (w : Workspace) (settings : Settings) (place : Place) : Command → Prop
  | .extract input _ overrides =>
    ∀ chosen, extractSettings settings overrides = .valid chosen →
      ∀ directory, w.find (.ofString input) = .ok (directory, .directory) →
        Tree.isSource directory chosen.extensions chosen.recursive place = false
  | .render input _ _ => ∀ e, w.find (.ofString input) ≠ .ok (place, e)

/-- A command has the same collection when the file that was written is none of its sources. -/
theorem Command.collection?_withFile {w : Workspace} {p : Path} {target : Place}
    (hproper : w.tree.Proper) (hhold : w.CanHold p target) (bytes : List UInt8)
    {s : Surroundings} {settings : Settings} {command : Command} {c : Collection}
    (hapart : command.ReadsApart w settings target)
    (hcollection : command.collection? w s settings = some c) :
    command.collection? (w.withFile target bytes) s settings = some c := by
  cases command with
  | extract input output overrides =>
    rw [collection?] at hcollection ⊢
    cases hchosen : extractSettings settings overrides with
    | invalid problems =>
      rw [hchosen] at hcollection
      exact hcollection
    | valid chosen =>
      simp only [hchosen] at hcollection ⊢
      rw [Extraction.readable?_withFile hproper hhold bytes (hapart chosen hchosen)
        (by rw [hcollection]; rfl)]
      exact hcollection
  | render input output locale? =>
    rw [collection?, Workspace.toOption_eq_some_iff] at hcollection ⊢
    exact Collection.ofFile_withFile hhold bytes hapart hcollection

/-- Of what a command finds besides the files, its collection depends on the libraries and on the
looks that are refused. -/
theorem Command.collection?_congr {w : Workspace} {s s' : Surroundings} {settings : Settings}
    (command : Command) (hlibraries : s'.libraries = s.libraries)
    (hfaults : s'.lookFaults = s.lookFaults) :
    command.collection? w s' settings = command.collection? w s settings := by
  cases command <;> simp only [collection?, hlibraries, hfaults]

/-- A call reads neither its settings nor its input where it writes. -/
structure Job.Apart {w : Workspace} {c : Call} (j : Job w c) : Prop where
  settings : ∀ path,
    Settings.filePath? j.invocation.settingsFile c.surroundings.environment = some path →
      ∀ e, w.find path ≠ .ok (j.place, e)
  input : j.invocation.command.ReadsApart w j.settings j.place

/-- The same arguments, with the same environment and the same libraries. What the system lets the
call look at is the same, too. -/
structure Call.Repeats (d c : Call) : Prop where
  args : d.args = c.args
  environment : d.surroundings.environment = c.surroundings.environment
  libraries : d.surroundings.libraries = c.surroundings.libraries
  lookFaults : d.surroundings.lookFaults = c.surroundings.lookFaults

/-- **The job of a repeated call**, among the files that it has written. -/
def Job.again {w : Workspace} {c : Call} (j : Job w c) (hproper : w.tree.Proper) (hapart : j.Apart)
    {d : Call} (hrepeats : d.Repeats c) : Job j.written d where
  invocation := j.invocation
  settings := j.settings
  collection := j.collection
  place := j.place
  read_args := hrepeats.args ▸ j.read_args
  load_settings := Settings.load_withFile j.canHold _ (hrepeats.environment ▸ hapart.settings)
    (hrepeats.environment ▸ hrepeats.libraries ▸ j.load_settings)
  layout_accepted := j.layout_accepted
  collected :=
    (Command.collection?_congr _ hrepeats.libraries hrepeats.lookFaults).trans
      (Command.collection?_withFile hproper j.canHold _ hapart.input j.collected)
  canHold := j.canHold.withFile _

/-! ## Sessions

A session is a list of calls, each on the tree that the one before left. What one call keeps, a
session keeps, by induction on its calls. -/

/-- The files behind several calls. -/
def afterCalls (w : Workspace) (calls : List Call) : Workspace :=
  calls.foldl Call.after w

/-- The temporary file of each call is told from all files that there are then. -/
def FreshCalls : Workspace → List Call → Prop
  | _, [] => True
  | w, c :: calls => c.Fresh w ∧ FreshCalls (c.after w) calls

instance FreshCalls.decide : (w : Workspace) → (calls : List Call) → Decidable (FreshCalls w calls)
  | _, [] => inferInstanceAs (Decidable True)
  | w, c :: calls =>
    have := FreshCalls.decide (c.after w) calls
    inferInstanceAs (Decidable (c.Fresh w ∧ FreshCalls (c.after w) calls))

/-- No call that changes anything writes its document to a place. -/
def Untouched (place : Place) : Workspace → List Call → Prop
  | _, [] => True
  | w, c :: calls =>
    ((c.run w).tree ≠ w.tree → ∀ j : Job w c, j.place ≠ place) ∧
      Untouched place (c.after w) calls

variable {w : Workspace} {before calls behind : List Call}

/-- A session in two parts. -/
theorem afterCalls_append :
    afterCalls w (before ++ behind) = afterCalls (afterCalls w before) behind :=
  List.foldl_append

theorem freshCalls_append :
    FreshCalls w (before ++ behind) ↔
      FreshCalls w before ∧ FreshCalls (afterCalls w before) behind := by
  induction before generalizing w with
  | nil => simp [FreshCalls, afterCalls]
  | cons c before ih =>
    rw [List.cons_append, FreshCalls, FreshCalls, ih, and_assoc]
    rfl

/-- **What every call keeps, a session keeps.** -/
theorem afterCalls_induction {P : Workspace → Prop}
    (step : ∀ w (c : Call), c.Fresh w → c.surroundings.Encodes → P w → P (c.after w))
    (hfresh : FreshCalls w calls) (hencodes : ∀ c ∈ calls, c.surroundings.Encodes) (hw : P w) :
    P (afterCalls w calls) := by
  induction calls generalizing w with
  | nil => exact hw
  | cons c calls ih =>
    rw [List.forall_mem_cons] at hencodes
    exact ih hfresh.2 hencodes.2 (step w c hfresh.1 hencodes.1 hw)

/-- A tree stays proper along a session. -/
theorem proper_afterCalls (hfresh : FreshCalls w calls)
    (hencodes : ∀ c ∈ calls, c.surroundings.Encodes) (hproper : w.tree.Proper) :
    (afterCalls w calls).tree.Proper := by
  refine afterCalls_induction (P := fun w => w.tree.Proper) ?_ hfresh hencodes hproper
  intro w c hc hencodes hw
  rcases after_eq hc hencodes with hsame | ⟨j, hwritten⟩
  · rwa [hsame]
  · rw [hwritten]
    exact hw.put j.canHold.dots_not_mem _

/-- The directories stay where they are. -/
theorem sameDirectories_afterCalls (hfresh : FreshCalls w calls)
    (hencodes : ∀ c ∈ calls, c.surroundings.Encodes) :
    (afterCalls w calls).base = w.base ∧ w.tree.SameDirectories (afterCalls w calls).tree := by
  refine afterCalls_induction
    (P := fun w' => w'.base = w.base ∧ w.tree.SameDirectories w'.tree) ?_ hfresh hencodes
    ⟨rfl, fun _ => Iff.rfl⟩
  rintro w' c hc hencodes ⟨hbase, hsame⟩
  rcases after_eq hc hencodes with hkept | ⟨j, hwritten⟩
  · rw [hkept]
    exact ⟨hbase, hsame⟩
  · rw [hwritten]
    exact ⟨hbase, fun p => (hsame p).trans (j.canHold.sameDirectories _ p)⟩

/-- What stands at a place where no call writes stays. -/
theorem get?_afterCalls {place : Place} (hfresh : FreshCalls w calls)
    (hencodes : ∀ c ∈ calls, c.surroundings.Encodes) (huntouched : Untouched place w calls) :
    (afterCalls w calls).tree.get? place = w.tree.get? place := by
  induction calls generalizing w with
  | nil => rfl
  | cons c calls ih =>
    rw [List.forall_mem_cons] at hencodes
    refine (ih hfresh.2 hencodes.2 huntouched.2).trans ?_
    -- the call changed nothing, or it wrote its one file, which is another one
    by_cases hsame : (c.run w).tree = w.tree
    · exact congrArg (Tree.get? · place) hsame
    · rcases (allOrNothing hfresh.1 hencodes.1).either with hkept | ⟨j, hwritten⟩
      · exact absurd hkept hsame
      · exact (hwritten place).trans (if_neg (huntouched.1 hsame j).symm)

/-! ## Reading documents back

The document of an extraction stays in its place until a call writes there. So it can be read back
behind any number of other calls. -/

/-- The document of an extraction, as later calls find it. -/
structure Job.ReadBack {w : Workspace} {c : Call} (j : Job w c) (w' : Workspace) : Prop where
  /-- The path that it was written to still leads to it. -/
  found : w'.find (.ofString j.invocation.command.output) =
    .ok (j.place, .file (encodeUtf8 j.document))
  /-- What it denotes, to any reader of documents, is the collection that was extracted. -/
  denoted : ∀ parse?, Collection.ReadsDocuments parse? → ∀ path e,
    w'.find path = .ok (j.place, e) → Collection.ofFile w' path parse? = .ok j.collection
  /-- What is rendered from it is the Markdown of that collection. -/
  rendered : ∀ (d : Call) (k : Job w' d) (input output : String) (locale? : Option Markdown.Locale),
    Collection.ReadsDocuments d.surroundings.libraries.parseJson? →
      k.invocation.command = .render input output locale? →
        (∃ e, w'.find (.ofString input) = .ok (j.place, e)) →
          k.document = Markdown.render (locale?.getD k.settings.render.locale) j.collection

/-- A call of the command that extracts. -/
def Job.Extracts {w : Workspace} {c : Call} (j : Job w c) : Prop :=
  ∃ input output overrides, j.invocation.command = .extract input output overrides

theorem Job.document_of_extracts {c : Call} (j : Job w c) (hextracts : j.Extracts) :
    j.document = j.collection.toJson j.settings.output.indent := by
  obtain ⟨input, output, overrides, hcommand⟩ := hextracts
  rw [document, hcommand, Command.document]

/-- **What an extraction wrote is read back**, as long as nothing else is written there. -/
theorem Job.readBack {c : Call} (j : Job w c) (hextracts : j.Extracts)
    (hfresh : FreshCalls j.written calls) (hencodes : ∀ c ∈ calls, c.surroundings.Encodes)
    (huntouched : Untouched j.place j.written calls) :
    j.ReadBack (afterCalls j.written calls) := by
  have hget : (afterCalls j.written calls).tree.get? j.place =
      some (.file (encodeUtf8 j.document)) := by
    rw [get?_afterCalls hfresh hencodes huntouched, written, j.canHold.get?_withFile, if_pos rfl]
  have hhold : (afterCalls j.written calls).CanHold (.ofString j.invocation.command.output)
      j.place := by
    obtain ⟨hbase, hsame⟩ := sameDirectories_afterCalls hfresh hencodes
    exact (j.canHold.withFile _).of_sameDirectories hbase hsame
  have hdenoted : ∀ parse?, Collection.ReadsDocuments parse? → ∀ path e,
      (afterCalls j.written calls).find path = .ok (j.place, e) →
        Collection.ofFile (afterCalls j.written calls) path parse? = .ok j.collection := by
    intro parse? hparse path e hfind
    have he : e = .file (encodeUtf8 j.document) :=
      Option.some.inj ((Tree.find_ok.mp hfind).2.symm.trans hget)
    rw [he, j.document_of_extracts hextracts] at hfind
    exact hparse.ofFile_of_find hfind
  refine ⟨hhold.find_eq hget, hdenoted, ?_⟩
  -- A job of a later rendering has read its input, and there is one collection to be read there.
  rintro d k input output locale? hparse hcommand ⟨e, hfind⟩
  have hcollected := k.collected
  rw [hcommand, Command.collection?, hdenoted _ hparse _ e hfind] at hcollected
  rw [document, hcommand, Command.document, Option.some.inj hcollected]

/-! ## Repeating calls

A call is made twice with nothing in between. The second time it finds what it wrote itself. -/

/-- **A repeated call writes the same once more.** -/
theorem Job.repeated {c d : Call} (j : Job w c) (hproper : w.tree.Proper) (hapart : j.Apart)
    (hrepeats : d.Repeats c) (hfresh : d.Fresh j.written) (hencodes : d.surroundings.Encodes) :
    (∀ place, (d.run j.written).tree.get? place = j.written.tree.get? place) ∧
      (d.surroundings.Heard → (∀ step, d.surroundings.writeFault step = none) →
        (d.run j.written).ending = .exit 0) := by
  -- The repeated call has a job with the same document, so it writes what stands there already.
  let again : Job j.written d := j.again hproper hapart hrepeats
  have hcall := allOrNothing hfresh hencodes
  have hwritten : j.written.tree.get? j.place = some (.file (encodeUtf8 j.document)) := by
    rw [written, j.canHold.get?_withFile, if_pos rfl]
  refine ⟨fun place => ?_, fun hheard hfaults => (hcall.success hheard).mpr ⟨⟨again⟩, hfaults⟩⟩
  rcases again.run_ending hfresh hencodes with ⟨-, hsame, -⟩ | ⟨htree, -, -⟩
  · rw [hsame]
  · rw [htree]
    refine (again.canHold.get?_withFile _ place).trans ?_
    split
    · next hplace => exact hplace ▸ hwritten.symm
    · rfl

/-! ## Every call of a session

A call in the middle of a session sees the tree that the calls before it left. So what holds of one
call on any tree holds of each call of a session. -/

/-- **What holds of every call of a session** in which each text has bytes. A call writes its
document or changes nothing. What an extraction has written is read back as the collection that was
extracted, until another call writes to the same place; and the same call once more leaves all files
as they are, if it does not read where it writes. -/
theorem session_documents {c : Call} (hproper : w.tree.Proper)
    (hfresh : FreshCalls w (before ++ c :: behind))
    (hencodes : ∀ d ∈ before ++ c :: behind, d.surroundings.Encodes) :
    AllOrNothing (afterCalls w before) c ∧
      ∀ j : Job (afterCalls w before) c, j.Extracts →
        (c.run (afterCalls w before)).ending = .exit 0 →
          (∀ between rest, behind = between ++ rest →
            Untouched j.place (afterCalls w (before ++ [c])) between →
              j.ReadBack (afterCalls w (before ++ c :: between))) ∧
          ∀ d rest, behind = d :: rest → d.Repeats c → j.Apart →
            (∀ place, (d.run (afterCalls w (before ++ [c]))).tree.get? place =
                (afterCalls w (before ++ [c])).tree.get? place) ∧
              (d.surroundings.Heard → (∀ step, d.surroundings.writeFault step = none) →
                (d.run (afterCalls w (before ++ [c]))).ending = .exit 0) := by
  obtain ⟨hbefore, hc, hbehind⟩ := freshCalls_append.mp hfresh
  rw [List.forall_mem_append, List.forall_mem_cons] at hencodes
  obtain ⟨hencodesBefore, hencodesCall, hencodesBehind⟩ := hencodes
  refine ⟨allOrNothing hc hencodesCall, fun j hextracts hexit => ?_⟩
  -- the call has succeeded, so the document stands in its place
  have hafter : c.after (afterCalls w before) = j.written :=
    j.after_eq_written hc hencodesCall hexit
  have hnext : afterCalls w (before ++ [c]) = j.written := by
    rw [afterCalls_append, ← hafter]
    rfl
  rw [hafter] at hbehind
  rw [hnext]
  refine ⟨?_, ?_⟩
  · rintro between rest rfl huntouched
    -- the later calls start from there
    have hlater : afterCalls w (before ++ c :: between) = afterCalls j.written between := by
      rw [← List.singleton_append, ← List.append_assoc, afterCalls_append, hnext]
    rw [hlater]
    exact j.readBack hextracts (freshCalls_append.mp hbehind).1
      (List.forall_mem_append.mp hencodesBehind).1 huntouched
  · rintro d rest rfl hrepeats hapart
    exact j.repeated (proper_afterCalls hbefore hencodesBefore hproper) hapart hrepeats hbehind.1
      (List.forall_mem_cons.mp hencodesBehind).1

/-! ### A directory with one script -/

def oneScript : Workspace :=
  ⟨[], (Tree.empty.put ["d"] .directory).put ["d", "a.sql"]
    (.file (encodeUtf8 "CREATE TABLE t (x INT);"))⟩

def extractOne : Call :=
  ⟨["extract", "d", "o.json"], { time := "", unique := "0" }⟩

def extractOneJob : Job oneScript extractOne where
  invocation := ⟨"", false, .extract "d" "o.json" []⟩
  settings := {}
  collection := ⟨[⟨"a", [⟨"t", "", [⟨"x", "INT", true, false, ""⟩]⟩]⟩]⟩
  place := ["o.json"]
  read_args := by with_unfolding_all rfl
  load_settings := by decide +kernel
  layout_accepted := by decide +kernel
  collected := by decide +kernel
  canHold :=
    { beside := ⟨[], by decide +kernel⟩
      parent := ⟨[], by decide +kernel, rfl⟩
      name := by decide +kernel
      free := by decide +kernel }

theorem apart_extractOneJob : extractOneJob.Apart where
  settings := by
    intro path hpath
    exact absurd hpath (by simp [extractOneJob, extractOne, Settings.filePath?])
  input := by
    intro chosen _ directory hdirectory
    have hplace : oneScript.find (.ofString "d") = .ok (["d"], .directory) := by decide +kernel
    cases hplace.symm.trans hdirectory
    rfl

/-- The script is extracted twice: its document is read back, and the second call keeps it. -/
theorem session_documents_oneScript :
    oneScript.tree.Proper ∧ FreshCalls oneScript [extractOne, extractOne] ∧
      AllOrNothing oneScript extractOne ∧ (extractOne.run oneScript).ending = .exit 0 ∧
        extractOneJob.ReadBack (afterCalls oneScript [extractOne]) ∧
          (extractOne.run (afterCalls oneScript [extractOne])).ending = .exit 0 ∧
            ∀ place, (extractOne.run (afterCalls oneScript [extractOne])).tree.get? place =
              (afterCalls oneScript [extractOne]).tree.get? place := by
  have hproper : oneScript.tree.Proper := by decide +kernel
  have hfresh : FreshCalls oneScript [extractOne, extractOne] := by decide +kernel
  have hexit : (extractOne.run oneScript).ending = .exit 0 := by decide +kernel
  have hencodes : ∀ d ∈ [] ++ extractOne :: [extractOne], d.surroundings.Encodes := by
    intro d hd
    obtain rfl : d = extractOne := by simpa using hd
    exact fun _ => rfl
  obtain ⟨hcall, hjob⟩ :=
    @session_documents oneScript [] [extractOne] extractOne hproper hfresh hencodes
  obtain ⟨hreadBack, hrepeated⟩ := hjob extractOneJob ⟨_, _, _, rfl⟩ hexit
  obtain ⟨hkept, hagain⟩ :=
    hrepeated extractOne [] rfl ⟨rfl, rfl, rfl, rfl⟩ apart_extractOneJob
  exact ⟨hproper, hfresh, hcall, hexit, hreadBack [] [extractOne] rfl trivial,
    hagain (fun _ => rfl) fun _ => rfl, hkept⟩

/-! ### A document over the settings -/

/-- The settings ask for lines without indentation. -/
def flatSettings : Workspace :=
  ⟨[], ((Tree.empty.put ["c.yaml"] (.file (encodeUtf8 "output: \x7bindent: 0\x7d"))).put
    ["d"] .directory).put ["d", "a.sql"] (.file [])⟩

/-- The document takes the place of the settings. -/
def extractOverSettings : Call :=
  ⟨["--config", "c.yaml", "extract", "d", "c.yaml"], { time := "", unique := "0" }⟩

def extractOverSettingsJob : Job flatSettings extractOverSettings where
  invocation := ⟨"c.yaml", false, .extract "d" "c.yaml" []⟩
  settings := { output := { indent := 0 } }
  collection := ⟨[⟨"a", []⟩]⟩
  place := ["c.yaml"]
  read_args := by with_unfolding_all rfl
  load_settings := by decide +kernel
  layout_accepted := by decide +kernel
  collected := by decide +kernel
  canHold :=
    { beside := ⟨[], by decide +kernel⟩
      parent := ⟨[], by decide +kernel, rfl⟩
      name := by decide +kernel
      free := by decide +kernel }

/-- A document is also a settings file, one that keeps all defaults. So a call that writes over its
own settings writes something else the next time, although it reads no source there. -/
theorem extractOverSettings_differs :
    FreshCalls flatSettings [extractOverSettings, extractOverSettings] ∧
      extractOverSettingsJob.Extracts ∧
        extractOverSettingsJob.invocation.command.ReadsApart flatSettings
          extractOverSettingsJob.settings extractOverSettingsJob.place ∧
          (extractOverSettings.run flatSettings).ending = .exit 0 ∧
            (extractOverSettings.run (extractOverSettings.after flatSettings)).ending = .exit 0 ∧
              (extractOverSettings.run (extractOverSettings.after flatSettings)).tree.get?
                  extractOverSettingsJob.place ≠
                (extractOverSettings.run flatSettings).tree.get? extractOverSettingsJob.place := by
  refine ⟨by decide +kernel, ⟨_, _, _, rfl⟩, ?_, by decide +kernel, by decide +kernel,
    by decide +kernel⟩
  intro chosen _ directory hdirectory
  have hplace : flatSettings.find (.ofString "d") = .ok (["d"], .directory) := by decide +kernel
  cases hplace.symm.trans hdirectory
  rfl

end CommandLine

end TableDocs
