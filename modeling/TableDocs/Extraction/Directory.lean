import TableDocs.Extraction.Report
import TableDocs.Files.Discovery
import TableDocs.Settings.Basic

/-!
# TableDocs — extracting a directory

All sources of a directory make one collection. A source that cannot be read is left out and
reported; a directory that gives no source at all is a fault.

The tree says what stands at a path. Whether it can be looked at is another matter: a path may be
too long for the system, and a directory may be closed to its reader. What the system answers then
is part of the surroundings of an extraction, like the tokenizers and the order in which workers
finish.
-/

namespace TableDocs.Extraction

open TableDocs.Files

/-- How the scripts of each dialect that settings may name are cut into tokens. -/
abbrev Tokenizers := Named Sql.Dialect.ofName? → Sql.Tokenizer

/-- The tokenizers of this library. Names of dialects without rules of their own stand for the
general ones here. -/
def ownTokenizers : Tokenizers :=
  fun dialect => dialect.choice

/-- Looks at a directory that the system refuses, whatever stands there. -/
structure LookFaults where
  /-- Asking what a path leads to fails: a name is too long, or the way to it is closed. -/
  path? : Option FileFault := none
  /-- Listing the directory fails, or asking what one of its entries is. -/
  listing? : Option FileFault := none
  deriving DecidableEq, Repr

/-- Why a directory gives no collection. -/
inductive DirectoryFault
  | missing
  | noDirectory
  /-- The directory cannot be listed. -/
  | unreadable (fault : FileFault)
  /-- No file has one of the suffixes. -/
  | noSources (extensions : List String)
  /-- None of this many sources could be read. -/
  | noneReadable (count : Nat)
  /-- It cannot even be told what the path leads to. This fault is none of the input: it is passed
  on as it is. -/
  | unreachable (fault : FileFault)
  deriving DecidableEq, Repr

namespace DirectoryFault

def message (directory : Path) : DirectoryFault → String
  | missing => "Input directory not found: " ++ directory.toString
  | noDirectory => "Input path is not a directory: " ++ directory.toString
  | unreadable fault =>
    "Cannot read input directory " ++ directory.toString ++ ": " ++ fault.message
  | noSources extensions =>
    "No schema sources (" ++ ", ".intercalate extensions ++ ") found in " ++ directory.toString
  | noneReadable count =>
    "None of the " ++ toString count ++ " schema sources in " ++ directory.toString ++
      " could be read"
  | unreachable fault => fault.message

end DirectoryFault

/-- The place of a directory that can be listed. -/
def openDirectory (w : Workspace) (directory : Path) (faults : LookFaults) :
    Except DirectoryFault Place :=
  match faults.path?, w.find directory, faults.listing? with
  | some fault, _, _ => .error (.unreachable fault)
  | none, .error _, _ => .error .missing
  | none, .ok (_, .file _), _ => .error .noDirectory
  | none, .ok (_, .directory), some fault => .error (.unreadable fault)
  | none, .ok (place, .directory), none => .ok place

/-- The sources of a directory, in the order of their paths below it. -/
def sourcePaths (w : Workspace) (directory : Path) (place : Place) (s : Settings.Extract) :
    List Path :=
  (w.tree.discover place s.extensions s.recursive).map fun parts =>
    { directory with parts := directory.parts ++ parts }

/-- What is logged when sources were found. -/
def discoveryRecord (directory : Path) (s : Settings.Extract) (count : Nat) : Log.Record :=
  ⟨.info, .extraction,
    "Found " ++ toString count ++ " schema sources in " ++ directory.toString ++ " (dialect: " ++
      s.dialect.name ++ ")"⟩

/-- Extracts the sources that were found in a directory. -/
def extractFound (w : Workspace) (directory : Path) (s : Settings.Extract) (schedule : Schedule)
    (tokenizers : Tokenizers) (paths : List Path) :
    Log.Logged (Except DirectoryFault Report) :=
  let extracted :=
    extractSources w s.encoding.choice (tokenizers s.dialect) schedule s.workers paths
  let result : Except DirectoryFault Report :=
    if extracted.value.sources.isEmpty then .error (.noneReadable paths.length)
    else .ok (.ofOutcomes paths.length extracted.value)
  ⟨result, discoveryRecord directory s paths.length :: extracted.records⟩

/-- Extracts all sources of a directory. -/
def extractDirectory (w : Workspace) (directory : Path) (s : Settings.Extract)
    (schedule : Schedule) (tokenizers : Tokenizers := ownTokenizers) (faults : LookFaults := {}) :
    Log.Logged (Except DirectoryFault Report) :=
  match openDirectory w directory faults with
  | .error fault => { value := .error fault }
  | .ok place =>
    match sourcePaths w directory place s with
    | [] => { value := .error (.noSources s.extensions) }
    | paths => extractFound w directory s schedule tokenizers paths

end TableDocs.Extraction
