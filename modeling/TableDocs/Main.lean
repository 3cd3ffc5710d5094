import Std.Time.Format
import TableDocs.CommandLine.Run

/-!
# TableDocs — the program

The program takes the files that a run may ask for from the file system, runs on them, and writes
the one file that the run has changed. All decisions are made by the run itself.
-/

namespace TableDocs.Program

open TableDocs.Files
open TableDocs.CommandLine

/-- How the program is used. -/
def usage : String :=
  joinLines
    ["usage: tabledocs [-h] [--config CONFIG] [-v] COMMAND ...", "",
      "  extract [--workers N] [--dialect NAME] input_dir output_file",
      "      describe the tables of all scripts of a directory in one JSON document",
      "  render [--locale en|zh] input_file output_file",
      "      render such a document as Markdown"]

/-! ## Taking files in -/

def pathText (place : Place) : String :=
  "/" ++ "/".intercalate place

/-- The entry of a place of the file system. -/
def entryAt? (place : Place) : IO (Option Entry) := do
  let path := (← IO.currentDir) / pathText place
  if !(← path.pathExists) then return none
  if ← path.isDir then return some .directory
  return some (.file (← IO.FS.readBinFile path).toList)

/-- Takes in all entries on the way along parts; where the way ends is returned too. -/
def addWay (t : Tree) (parts : List String) : IO (Tree × Place) := do
  let mut tree := t
  let mut place : Place := []
  for part in parts do
    place := if part = ".." then place.dropLast else place ++ [part]
    if !place.isEmpty then
      if let some entry ← entryAt? place then tree := tree.put place entry
  return (tree, place)

/-- Takes in what stands below a directory. -/
partial def addBelow (t : Tree) (directory : Place) : IO Tree := do
  let mut tree := t
  for item in ← ((← IO.currentDir) / pathText directory).readDir do
    let place := directory ++ [item.fileName]
    if let some entry ← entryAt? place then
      tree := tree.put place entry
      if entry = .directory && !skippedDirectories.contains item.fileName then
        tree ← addBelow tree place
  return tree

/-- The tree of all files that arguments may ask for. -/
def treeFor (base : Place) (environment : Settings.Environment) (args : List String) :
    IO Tree := do
  let .ok invocation := Invocation.read args | return .empty
  let place (path : String) : List String := (⟨base, .empty⟩ : Workspace).parts (.ofString path)
  let (input, output) :=
    match invocation.command with
    | .extract input output _ => (input, output)
    | .render input output _ => (input, output)
  let (tree, _) ← addWay .empty (place output)
  let (tree, _) ←
    match Settings.filePath? invocation.settingsFile environment with
    | some path => addWay tree ((⟨base, tree⟩ : Workspace).parts path)
    | none => pure (tree, [])
  let (tree, inputPlace) ← addWay tree (place input)
  if tree.get? inputPlace = some .directory then addBelow tree inputPlace else return tree

/-! ## Writing -/

/-- Puts a file in the place of its old version. Tells which step failed, if one did. -/
def replaceFile (place : Place) (bytes : List UInt8) (unique : String) :
    IO (Option (WriteStep × FileFault)) := do
  let target := pathText place
  let name := Workspace.temporaryName (.ofString target) unique
  let temporary := pathText (place.dropLast ++ [name])
  try
    IO.FS.writeBinFile temporary ⟨bytes.toArray⟩
  catch e =>
    return some (.createTemporary, .other 5 (toString e))
  try
    IO.FS.rename temporary target
    return none
  catch e =>
    IO.FS.removeFile temporary
    return some (.replace, .other 5 (toString e))

/-- Writes what a run has changed. -/
def writeChanges (before after : Tree) (unique : String) :
    IO (Option (WriteStep × FileFault)) := do
  for (place, entry) in after.entries do
    match entry with
    | .file bytes =>
      if before.get? place ≠ some entry then
        if let some fault ← replaceFile place bytes unique then return some fault
    | .directory => pure ()
  return none

/-! ## Running -/

/-- A text that is different each time. -/
def uniqueText : IO String := do
  let letters := "abcdefghijklmnopqrstuvwxyz0123456789_".toList
  let picked ← (List.range 8).mapM fun _ => do
    return letters.getD (← IO.rand 0 (letters.length - 1)) 'a'
  return String.ofList picked

/-- Shows how a run went and returns its exit code. -/
def present (r : Run) : IO UInt32 := do
  IO.print r.stdout
  IO.eprint r.stderr
  match r.ending with
  | .exit code => return UInt32.ofNat code
  | .stopped stop =>
    if stop = .help then IO.print usage else IO.eprint usage
    return UInt32.ofNat stop.exitCode
  | .refusedLayout message =>
    IO.eprintln message
    return 1

def variableText (name : String) : IO String := do
  return (← IO.getEnv name).getD ""

def start (args : List String) : IO UInt32 := do
  let environment : Settings.Environment :=
    { file := ← variableText Settings.Environment.fileName
      logLevel := ← variableText Settings.Environment.logLevelName
      workers := ← variableText Settings.Environment.workersName }
  let base := (Path.ofString (← IO.currentDir).toString).parts
  let surroundings : Surroundings :=
    { environment
      time := (← Std.Time.PlainDateTime.now).format "uuuu-MM-dd HH:mm:ss,SSS"
      unique := ← uniqueText }
  let w : Workspace := ⟨base, ← treeFor base environment args⟩
  let run := CommandLine.run w surroundings args
  match ← writeChanges w.tree run.tree surroundings.unique with
  | none => present run
  | some (step, fault) =>
    -- The run is taken again, now that it is known which step fails.
    let writeFault (s : WriteStep) : Option FileFault := if s = step then some fault else none
    present (CommandLine.run w { surroundings with writeFault } args)

end TableDocs.Program

def main (args : List String) : IO UInt32 :=
  TableDocs.Program.start args
