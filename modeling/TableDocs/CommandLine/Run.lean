import TableDocs.CommandLine.Command
import TableDocs.Log.Layout

/-!
# TableDocs — runs of the program

A run reads its arguments, loads the settings and runs a command. It ends with an exit code and two
texts: what it says, and what it logs and complains of. The variables of its environment are given;
how a `.env` file adds to them comes before the run.
-/

namespace TableDocs.CommandLine

open TableDocs.Files

/-- How a run ends. -/
inductive Ending
  | exit (code : Nat)
  /-- The arguments leave nothing to do. -/
  | stopped (stop : Stop)
  /-- Log lines cannot have the layout of the settings. -/
  | refusedLayout (message : String)
  deriving DecidableEq, Repr

/-- The exit code of arguments that leave nothing to do. -/
def Stop.exitCode : Stop → Nat
  | misuse => 2
  | help => 0

structure Run where
  ending : Ending
  stdout : String := ""
  stderr : String := ""
  tree : Tree

/-- Lines as one text; each ends in a line feed. -/
def joinLines (lines : List String) : String :=
  String.join (lines.map (· ++ "\n"))

/-- What is printed of a fault. -/
def complaint (headline : String) (problems : List Validation.Problem) : List String :=
  ("Error: " ++ headline) :: problems.map Validation.Problem.describe

/-- The lines of the records that are urgent enough. A record that the layout cannot show gives no
line. -/
def logLines (level : Log.Level) (layout time : String) (records : List Log.Record) : List String :=
  (records.filter (Log.Record.passes level)).filterMap (Log.Layout.line? layout time)

/-- The run of a command as the outside sees it. -/
def Run.ofCommand (logging : Settings.Logging) (time : String) (verbose : Bool)
    (done : CommandRun) : Run :=
  let level := if verbose then .debug else logging.level
  let log (records : List Log.Record) : List String := logLines level logging.layout time records
  match done.result with
  | .ok () =>
    { ending := .exit 0
      stdout := joinLines done.lines
      stderr := joinLines (log done.records)
      tree := done.tree }
  | .error (.unhandled report) =>
    { ending := .exit 1
      stdout := joinLines done.lines
      stderr := joinLines (log done.records ++ [report])
      tree := done.tree }
  | .error fault =>
    { ending := .exit 1
      stdout := joinLines done.lines
      stderr :=
        joinLines
          (log (done.records ++ [⟨.error, .commands, fault.headline⟩]) ++
            complaint fault.headline fault.problems)
      tree := done.tree }

/-- Runs what was asked for. -/
def Invocation.run (w : Workspace) (s : Surroundings) (i : Invocation) : Run :=
  match Settings.load w i.settingsFile s.environment s.libraries.parseYaml with
  | .error fault =>
    { ending := .exit 1
      stderr := joinLines (complaint fault.headline fault.problems)
      tree := w.tree }
  | .ok settings =>
    match Log.Layout.refusal? settings.logging.layout with
    | some message => { ending := .refusedLayout message, tree := w.tree }
    | none => .ofCommand settings.logging s.time i.verbose (i.command.run w s settings)

/-- Runs the program on its arguments. -/
def run (w : Workspace) (s : Surroundings) (args : List String) : Run :=
  match Invocation.read args with
  | .error stop => { ending := .stopped stop, tree := w.tree }
  | .ok invocation => invocation.run w s

end TableDocs.CommandLine
