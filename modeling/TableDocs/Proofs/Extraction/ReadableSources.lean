import TableDocs.Extraction.Directory
import TableDocs.Proofs.Extraction.WorkerPool
import TableDocs.Proofs.Files.AtomicWrite
import TableDocs.Proofs.Sql.BodyPartition

/-!
# TableDocs — the collection of a directory

What is extracted from a directory is the collection of its readable sources. This module states
that without workers, reports and failures, and tells when it stays the same.

* **`openDirectory_eq_ok_iff`** — a directory is opened when the path leads to one and the system
  lets it be looked at.
* **`readable?`** — the collection of the readable sources of a directory, if there is one.
* **`collection_extractDirectory`** — that is what an extraction gives, for all workers and
  schedules.
* **`readable?_withFile`** — a file that is written makes no difference to it, unless it stands
  where a source would.
-/

namespace TableDocs.Extraction

open TableDocs.Files

/-- The name and the tables of each source that can be read. -/
def readableSources (w : Workspace) (s : Settings.Extract) (tokenizers : Tokenizers)
    (paths : List Path) : List (String × List Sql.Table) :=
  paths.filterMap fun path =>
    (w.readText s.encoding.choice path).toOption.map fun text =>
      (path.stem, (Sql.readScript (tokenizers s.dialect) text).tables)

/-- The collection of the readable sources of a directory. There is none without any such source,
and none of a directory that cannot be looked at. -/
def readable? (w : Workspace) (directory : Path) (s : Settings.Extract) (tokenizers : Tokenizers)
    (faults : LookFaults) : Option Collection :=
  match faults.path?, faults.listing?, w.find directory with
  | none, none, .ok (place, .directory) =>
    match readableSources w s tokenizers (sourcePaths w directory place s) with
    | [] => none
    | sources => some (.ofSources sources)
  | _, _, _ => none

variable {w : Workspace} {directory : Path} {s : Settings.Extract} {tokenizers : Tokenizers}
  {faults : LookFaults} {place : Place}

/-! ## Opening the directory

Nothing is known of the sources before the directory is open, so all that follows starts from the
place where it stands. -/

/-- **A directory is opened** exactly when there is one and the system lets it be looked at. -/
theorem openDirectory_eq_ok_iff : openDirectory w directory faults = .ok place ↔
    faults.path? = none ∧ faults.listing? = none ∧ w.find directory = .ok (place, .directory) := by
  cases hpath : faults.path? with
  | some fault => simp [openDirectory, hpath]
  | none =>
    cases hfind : w.find directory with
    | error fault => simp [openDirectory, hpath, hfind]
    | ok found =>
      obtain ⟨q, e⟩ := found
      cases e with
      | file bytes => simp [openDirectory, hpath, hfind]
      | directory =>
        cases hlisting : faults.listing? <;> simp [openDirectory, hpath, hfind, hlisting]

/-- There is something to read only in a directory that is opened. -/
theorem readable?_of_error {fault : DirectoryFault}
    (h : openDirectory w directory faults = .error fault) :
    readable? w directory s tokenizers faults = none := by
  rw [readable?]
  split
  · next hpath hlisting hfind =>
    rw [openDirectory_eq_ok_iff.mpr ⟨hpath, hlisting, hfind⟩] at h
    exact absurd h (by simp)
  · rfl

/-- The collection of a directory that is open. -/
theorem readable?_of_ok (h : openDirectory w directory faults = .ok place) :
    readable? w directory s tokenizers faults =
      match readableSources w s tokenizers (sourcePaths w directory place s) with
      | [] => none
      | sources => some (.ofSources sources) := by
  obtain ⟨hpath, hlisting, hfind⟩ := openDirectory_eq_ok_iff.mp h
  rw [readable?, hpath, hlisting, hfind]

/-! ## What is extracted

Only the sources that can be read end up in the collection. So the outcomes of the paths are reduced
to those, and failures drop out of the account. -/

/-- The outcomes that are sources, one for each path that can be read. -/
theorem sources_ofList (paths : List Path) :
    (Outcomes.ofList (paths.map
      (extractSource w s.encoding.choice (tokenizers s.dialect)))).sources.map
        (fun source => (source.database, source.reading.tables)) =
      readableSources w s tokenizers paths := by
  induction paths with
  | nil => rfl
  | cons path paths ih =>
    rw [List.map_cons, readableSources, List.filterMap_cons, ← readableSources, ← ih]
    cases htext : w.readText s.encoding.choice path with
    | ok text =>
      rw [extractSource_of_text w _ _ htext]
      rfl
    | error fault =>
      rw [extractSource_of_fault w _ _ htext]
      rfl

/-- The collection of sources that were found. -/
theorem collection_extractFound (schedule : Schedule) (paths : List Path) :
    (extractFound w directory s schedule tokenizers paths).value.toOption.map Report.collection =
      match readableSources w s tokenizers paths with
      | [] => none
      | sources => some (.ofSources sources) := by
  rw [extractFound, ← sources_ofList]
  simp only [value_extractSources]
  cases hsources : (Outcomes.ofList (paths.map
      (extractSource w s.encoding.choice (tokenizers s.dialect)))).sources with
  | nil => rfl
  | cons source sources =>
    simp only [List.isEmpty_cons, Bool.false_eq_true, if_false]
    simp only [Except.toOption, Option.map_some, Report.ofOutcomes, hsources, List.map_cons]

/-- **An extraction gives the collection of the readable sources**, whatever the workers do. -/
theorem collection_extractDirectory (w : Workspace) (directory : Path) (s : Settings.Extract)
    (schedule : Schedule) (tokenizers : Tokenizers) (faults : LookFaults) :
    (extractDirectory w directory s schedule tokenizers faults).value.toOption.map
        Report.collection =
      readable? w directory s tokenizers faults := by
  rw [extractDirectory]
  cases hopen : openDirectory w directory faults with
  | error fault => rw [readable?_of_error hopen]; rfl
  | ok place =>
    rw [readable?_of_ok hopen]
    simp only
    cases hpaths : sourcePaths w directory place s with
    | nil => rfl
    | cons path paths => exact collection_extractFound schedule (path :: paths)

/-! ## Sources beside a file that is written

A file changes what a scan finds only where it stands in the place of a source. Everywhere else the
same sources are found, and each is read as before. -/

section Writing

variable {p : Path} {target : Place}

/-- A source is found at its own place, or not at all. -/
theorem place_of_source {w' : Workspace} (hproper : w.tree.Proper)
    (hdirectory : w'.find directory = .ok (place, .directory)) {parts : List String}
    (hparts : parts ∈ w.tree.discover place s.extensions s.recursive) {found : Place} {e : Entry}
    (hfind : w'.find { directory with parts := directory.parts ++ parts } = .ok (found, e)) :
    found = place ++ parts := by
  have hdots : ".." ∉ parts := by
    obtain ⟨⟨entry, hmem⟩, -⟩ := Tree.mem_discover hparts
    exact fun h => hproper _ hmem (List.mem_append_right place h)
  rw [Workspace.find, Workspace.parts_below, Tree.find_ok] at hfind
  obtain ⟨q, hfront, hbehind⟩ := Tree.walk_append.mp hfind.1
  rw [(Tree.find_ok.mp hdirectory).1] at hfront
  cases hfront
  exact Tree.walk_eq_append hdots hbehind

/-- A file that is no source leaves the readable sources as they are. -/
theorem readableSources_withFile (hproper : w.tree.Proper) (hhold : w.CanHold p target)
    (bytes : List UInt8) (hdirectory : w.find directory = .ok (place, .directory))
    (hsource : Tree.isSource place s.extensions s.recursive target = false) :
    readableSources (w.withFile target bytes) s tokenizers
        (sourcePaths (w.withFile target bytes) directory place s) =
      readableSources w s tokenizers (sourcePaths w directory place s) := by
  have hpaths : sourcePaths (w.withFile target bytes) directory place s =
      sourcePaths w directory place s := by
    rw [sourcePaths, sourcePaths, Workspace.withFile, Tree.discover_put hsource]
  have hdirectory' : (w.withFile target bytes).find directory = .ok (place, .directory) :=
    (Tree.find_directory_iff (hhold.sameDirectories bytes)).mp hdirectory
  rw [hpaths, readableSources, readableSources]
  apply List.filterMap_congr
  -- The texts are compared source by source: a source that is found stands at its own place, where
  -- nothing was written. One that cannot be found may fail in another way now, but still fails.
  intro path hpath
  obtain ⟨parts, hparts, rfl⟩ := List.mem_map.mp hpath
  have hne : place ++ parts ≠ target := by
    rintro rfl
    rw [(Tree.mem_discover hparts).2] at hsource
    exact absurd hsource (by decide)
  rw [Workspace.toOption_readText_eq]
  intro found content
  constructor
  · intro hfind
    have hfound := place_of_source hproper hdirectory' hparts hfind
    exact (hhold.find_withFile_iff bytes (hfound ▸ hne)).mp hfind
  · intro hfind
    have hfound := place_of_source hproper hdirectory hparts hfind
    exact (hhold.find_withFile_iff bytes (hfound ▸ hne)).mpr hfind

/-- **A file that is no source leaves the collection of a directory as it is.** -/
theorem readable?_withFile (hproper : w.tree.Proper) (hhold : w.CanHold p target)
    (bytes : List UInt8)
    (hsource : ∀ place, w.find directory = .ok (place, .directory) →
      Tree.isSource place s.extensions s.recursive target = false)
    (hsome : (readable? w directory s tokenizers faults).isSome) :
    readable? (w.withFile target bytes) directory s tokenizers faults =
      readable? w directory s tokenizers faults := by
  rw [readable?] at hsome
  split at hsome
  · next place hpath hlisting hdirectory =>
    have hdirectory' : (w.withFile target bytes).find directory = .ok (place, .directory) :=
      (Tree.find_directory_iff (hhold.sameDirectories bytes)).mp hdirectory
    simp only [readable?, hpath, hlisting, hdirectory, hdirectory',
      readableSources_withFile hproper hhold bytes hdirectory (hsource place hdirectory)]
  · exact absurd hsome (by simp)

end Writing

end TableDocs.Extraction
