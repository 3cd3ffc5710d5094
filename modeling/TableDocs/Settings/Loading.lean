import TableDocs.Files.Workspace
import TableDocs.Settings.Reading
import TableDocs.Text.Integer
import TableDocs.Yaml.Reader

/-!
# TableDocs — loading settings

Settings come in layers: the defaults, a YAML file over them, and variables of the environment over
both. A file is checked before the variables replace anything in it, and the result is checked
again.
-/

namespace TableDocs.Settings

open TableDocs.Data
open TableDocs.Validation

/-- The variables that settings look at; an empty text is the same as none. -/
structure Environment where
  /-- The path of a settings file, for when none is given otherwise. -/
  file : String := ""
  logLevel : String := ""
  workers : String := ""
  deriving DecidableEq, Repr

namespace Environment

/-- The names of the variables. -/
def fileName : String := "SCHEMADOC_CONFIG"
def logLevelName : String := "SCHEMADOC_LOG_LEVEL"
def workersName : String := "SCHEMADOC_WORKERS"

end Environment

/-- Why settings cannot be loaded. -/
inductive Fault
  | missingFile (path : Files.Path)
  | unreadableFile (fault : Files.FileFault)
  /-- The file is no YAML; the report is that of the parser. -/
  | invalidYaml (path : Files.Path) (report : String)
  | noMapping (path : Files.Path)
  | invalidFile (path : Files.Path) (problems : List Problem)
  | unreadableWorkers (text : String)
  | invalidVariables (problems : List Problem)
  deriving DecidableEq, Repr

namespace Fault

/-- The first line of the fault's report. -/
def headline : Fault → String
  | missingFile path => "Config file not found: " ++ path.toString
  | unreadableFile fault => fault.message
  | invalidYaml path report => "Invalid YAML in " ++ path.toString ++ ": " ++ report
  | noMapping path => "Configuration in " ++ path.toString ++ " must be a mapping"
  | invalidFile path problems =>
    "Invalid configuration in " ++ path.toString ++ ": " ++
      Validation.headline problems.length modelName
  | unreadableWorkers text =>
    Environment.workersName ++ " must be an integer, got " ++ Text.quoted text
  | invalidVariables problems => Validation.headline problems.length modelName

/-- The problems that the report lists behind its first line. -/
def problems : Fault → List Problem
  | invalidFile _ problems | invalidVariables problems => problems
  | _ => []

end Fault

/-! ## The file -/

/-- A file is read in pieces, which shows in the report of bytes that are no text. -/
def fileFault : Files.FileFault → Fault
  | .undecodable fault => .unreadableFile (.undecodable fault.inPieces)
  | fault => .unreadableFile fault

/-- The settings of a document; an empty document keeps all defaults. -/
def ofDocument (path : Files.Path) (v : Value) : Except Fault Settings :=
  let members? : Option (List (String × Value)) :=
    match v with
    | .null => some []
    | .object members => some members
    | _ => none
  match members? with
  | none => .error (.noMapping path)
  | some members =>
    match ofMembers members with
    | .valid s => .ok s
    | .invalid problems => .error (.invalidFile path problems)

/-- The settings of a file. -/
def ofFile (w : Files.Workspace) (path : Files.Path) (parseYaml : Yaml.Parser := Yaml.parse) :
    Except Fault Settings :=
  if !w.isPresent path then .error (.missingFile path)
  else
    match w.readText .utf8 path with
    | .error fault => .error (fileFault fault)
    | .ok text =>
      match parseYaml text with
      | .error report => .error (.invalidYaml path report)
      | .ok v => ofDocument path v

/-! ## Overrides -/

/-- The settings with other values for some members, checked as a whole. Of two members of one name
the later counts, so that overrides follow what they replace. -/
def overridden (s : Settings) (extract logging : List (String × Value)) : Checked Settings :=
  ofMembers
    [("extract", .object (s.extract.members ++ extract)), ("output", .object s.output.members),
      ("render", .object s.render.members), ("logging", .object (s.logging.members ++ logging))]

/-- The member that a text overrides, if there is a text. -/
def overrideText (key text : String) : List (String × Value) :=
  if text.isEmpty then [] else [(key, .text text)]

/-- The number of workers that a variable asks for. -/
def overrideWorkers (text : String) : Except Fault (List (String × Value)) :=
  if text.isEmpty then .ok []
  else
    match Text.Integer.parseDecimal? text with
    | some n => .ok [("workers", .int n)]
    | none => .error (.unreadableWorkers text)

/-- The settings with the variables of the environment over them. -/
def withVariables (s : Settings) (env : Environment) : Except Fault Settings :=
  match overrideWorkers env.workers with
  | .error fault => .error fault
  | .ok workers =>
    match s.overridden workers (overrideText "level" env.logLevel) with
    | .valid s => .ok s
    | .invalid problems => .error (.invalidVariables problems)

/-- The file that settings come from: the one that is given, else the one of the environment. -/
def filePath? (given : String) (env : Environment) : Option Files.Path :=
  if !given.isEmpty then some (.ofString given)
  else if !env.file.isEmpty then some (.ofString env.file)
  else none

/-- The settings below the variables: those of the file, or the defaults where there is none. -/
def fileSettings (w : Files.Workspace) (given : String) (env : Environment)
    (parseYaml : Yaml.Parser := Yaml.parse) : Except Fault Settings :=
  match filePath? given env with
  | some path => ofFile w path parseYaml
  | none => .ok {}

/-- Loads settings. `given` is the path of a file, or empty. -/
def load (w : Files.Workspace) (given : String) (env : Environment)
    (parseYaml : Yaml.Parser := Yaml.parse) : Except Fault Settings :=
  match fileSettings w given env parseYaml with
  | .error fault => .error fault
  | .ok s => s.withVariables env

end TableDocs.Settings
