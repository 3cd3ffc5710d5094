import TableDocs.Collection.Document
import TableDocs.Collection.File
import TableDocs.CommandLine.Invocation
import TableDocs.Extraction.Directory
import TableDocs.Files.AtomicWrite
import TableDocs.Markdown.Render
import TableDocs.Settings.Loading

/-!
# TableDocs — commands

A command reads files of the working directory, writes one file and says what it did. When a file
fails it writes nothing and its report tells why. Two faults are handled by nobody: a text that has
no bytes, which leaves the temporary file behind, and a console that does not take a line, which may
come to light when the document is written already.
-/

namespace TableDocs.CommandLine

open TableDocs.Data
open TableDocs.Files

/-- What the program takes from libraries: how scripts are cut into tokens, and how JSON and YAML
are read. -/
structure Libraries where
  tokenizers : Extraction.Tokenizers := Extraction.ownTokenizers
  parseJson? : Json.Parser := Json.parse?
  parseYaml : Yaml.Parser := Yaml.parse

/-- What a run finds besides its files. The names of files are texts here. One that is not is known
under some text that stands for it, and `encodeFault` tells it apart. Nobody interrupts a run. -/
structure Surroundings where
  /-- The variables, when those of a `.env` file have joined the ones that were set before. -/
  environment : Settings.Environment := {}
  /-- The time that log lines show. -/
  time : String
  /-- Tells the temporary file of a run from all other files. -/
  unique : String
  /-- How workers finish. -/
  schedule : Extraction.Schedule := .inOrder
  libraries : Libraries := {}
  /-- Looks at the input directory that the system refuses. -/
  lookFaults : Extraction.LookFaults := {}
  /-- Steps of a write that fail although the tree allows them. -/
  writeFault : WriteStep → Option FileFault := fun _ => none
  /-- Why a text has no bytes in UTF-8: it holds a name that is no text. -/
  encodeFault : String → Option String := fun _ => none
  /-- Why the console does not take a line: it is closed, or has no such characters. -/
  consoleFault : String → Option String := fun _ => none

/-- Why a command fails. -/
inductive Fault
  /-- The settings that options override are not valid any more. -/
  | invalidOptions (problems : List Validation.Problem)
  | directory (path : Path) (fault : Extraction.DirectoryFault)
  | input (path : Path) (fault : Collection.ReadFault)
  | output (path : Path) (fault : FileFault)
  /-- Nothing handles the fault: the run breaks off with a report that is not its own. -/
  | unhandled (report : String)
  deriving DecidableEq, Repr

namespace Fault

/-- The first line of the report on a fault. -/
def headline : Fault → String
  | invalidOptions problems =>
    "Invalid extract options: " ++
      Validation.headline problems.length Settings.Extract.modelName
  | directory path fault => fault.message path
  | input path fault => fault.headline path
  | output path fault => "Failed to write " ++ path.toString ++ ": " ++ fault.message
  | unhandled report => report

/-- The problems that the report lists behind its first line. -/
def problems : Fault → List Validation.Problem
  | invalidOptions problems => problems
  | input _ fault => fault.problems
  | _ => []

/-- The fault of an extraction whose directory gives no collection. -/
def ofDirectory (path : Path) : Extraction.DirectoryFault → Fault
  | .unreachable fault => unhandled fault.message
  | fault => directory path fault

end Fault

/-- How a command goes: its result, the lines it says, what it logs and the files it leaves. -/
structure CommandRun where
  result : Except Fault Unit
  lines : List String
  records : List Log.Record
  tree : Tree

namespace CommandRun

/-- Goes on behind what went well. -/
def andThen (first next : CommandRun) : CommandRun :=
  match first.result with
  | .error _ => first
  | .ok () =>
    { next with
      lines := first.lines ++ next.lines
      records := first.records ++ next.records }

end CommandRun

/-- Says lines one after the other, until the console does not take one. -/
def say (s : Surroundings) (tree : Tree) : List String → CommandRun
  | [] => ⟨.ok (), [], [], tree⟩
  | line :: lines =>
    match s.consoleFault line with
    | some report => ⟨.error (.unhandled report), [], [], tree⟩
    | none => CommandRun.andThen ⟨.ok (), [line], [], tree⟩ (say s tree lines)

/-- Writes a text and turns a failure into a fault of the command. -/
def writeOutput (w : Workspace) (s : Surroundings) (output text : String) :
    Except Fault Unit × Tree :=
  let path := Path.ofString output
  let written := w.writeText path text s.unique s.writeFault 0
  (written.result.mapError (.output path), written.final w.tree)

/-- Writes the document of a command. -/
def writeDocument (w : Workspace) (s : Surroundings) (output text : String) :
    Except Fault Unit × Tree :=
  match s.encodeFault text with
  | none => writeOutput w s output text
  | some report =>
    match w.abandonText (.ofString output) s.unique s.writeFault with
    | .error fault => (.error (.output (.ofString output) fault), w.tree)
    | .ok tree => (.error (.unhandled report), tree)

/-- Writes the document of a command, logs that and tells about it. -/
def finish (w : Workspace) (s : Surroundings) (output text : String) (record : Log.Record)
    (lines : List String) : CommandRun :=
  let (result, tree) := writeDocument w s output text
  CommandRun.andThen ⟨result, [], [], tree⟩
    (.andThen ⟨.ok (), [], [record], tree⟩ (say s tree lines))

/-! ## Extracting -/

/-- The settings of an extraction with options over them. -/
def extractSettings (settings : Settings) (overrides : List (String × Value)) :
    Validation.Checked Settings.Extract :=
  Settings.Extract.ofMembers (settings.extract.members ++ overrides)

/-- What is said of an extraction that succeeded. Its first line is preceded by an empty one. -/
def extractionLines (output : String) (report : Extraction.Report) : List String :=
  ["\n✓ Extraction complete", "  Output: " ++ output] ++
    report.summary.map fun line => if line.isEmpty then "" else "  " ++ line

/-- What an extraction does with the result of its directory. -/
def finishExtract (w : Workspace) (s : Surroundings) (format : Settings.Output)
    (input output : String)
    (extracted : Log.Logged (Except Extraction.DirectoryFault Extraction.Report)) : CommandRun :=
  (say s w.tree ["Extracting schema sources from: " ++ input]).andThen <|
    match extracted.value with
    | .error fault => ⟨.error (.ofDirectory (.ofString input) fault), [], extracted.records, w.tree⟩
    | .ok report =>
      CommandRun.andThen ⟨.ok (), [], extracted.records, w.tree⟩
        (finish w s output (report.collection.toJson format.indent)
          ⟨.info, .extraction, "Wrote " ++ output⟩ (extractionLines output report))

def runExtract (w : Workspace) (s : Surroundings) (settings : Settings) (input output : String)
    (overrides : List (String × Value)) : CommandRun :=
  match extractSettings settings overrides with
  | .invalid problems => ⟨.error (.invalidOptions problems), [], [], w.tree⟩
  | .valid chosen =>
    finishExtract w s settings.output input output
      (Extraction.extractDirectory w (.ofString input) chosen s.schedule s.libraries.tokenizers
        s.lookFaults)

/-! ## Rendering -/

/-- What is said of a rendering that succeeded. -/
def renderingLines (output : String) (c : Collection) : List String :=
  ["✓ Document written: " ++ output, "  Databases: " ++ toString c.totalDatabases,
    "  Tables: " ++ toString c.totalTables]

/-- What is logged about a rendering that succeeded. -/
def renderingRecord (output : String) (c : Collection) : Log.Record :=
  ⟨.info, .rendering,
    "Rendered " ++ toString c.totalTables ++ " tables from " ++ toString c.totalDatabases ++
      " databases to " ++ output⟩

def runRender (w : Workspace) (s : Surroundings) (settings : Settings) (input output : String)
    (locale? : Option Markdown.Locale) : CommandRun :=
  let path := Path.ofString input
  match Collection.ofFile w path s.libraries.parseJson? with
  | .error fault => ⟨.error (.input path fault), [], [], w.tree⟩
  | .ok c =>
    finish w s output (Markdown.render (locale?.getD settings.render.locale) c)
      (renderingRecord output c) (renderingLines output c)

/-- Runs a command. -/
def Command.run (w : Workspace) (s : Surroundings) (settings : Settings) : Command → CommandRun
  | .extract input output overrides => runExtract w s settings input output overrides
  | .render input output locale? => runRender w s settings input output locale?

end TableDocs.CommandLine
