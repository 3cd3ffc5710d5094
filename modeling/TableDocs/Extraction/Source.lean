import TableDocs.Files.Workspace
import TableDocs.Log.Record
import TableDocs.Sql.Script

/-!
# TableDocs — sources

A source is a file that holds the script of one database. Reading it either gives the tables of the
script or a failure, and what happened is logged.
-/

namespace TableDocs.Extraction

open TableDocs.Files

/-- A source that was read. -/
structure Source where
  /-- The name of the database: the file's name without its suffix. -/
  database : String
  path : Path
  reading : Sql.ScriptReading
  deriving DecidableEq, Repr

/-- A source that could not be read. -/
structure Failure where
  path : Path
  fault : FileFault
  deriving DecidableEq, Repr

namespace Failure

def reason (f : Failure) : String :=
  f.fault.message

def message (f : Failure) : String :=
  "Failed to read " ++ f.path.toString ++ ": " ++ f.reason

end Failure

/-- How the reading of a source ends. -/
abbrev Outcome := Except Failure Source

/-- The text of a source. -/
def readSource (w : Workspace) (encoding : Encoding) (path : Path) : Except Failure String :=
  match w.readText encoding path with
  | .ok text => .ok text
  | .error fault => .error ⟨path, fault⟩

/-- Reads a source and its script. -/
def extractSource (w : Workspace) (encoding : Encoding) (tokenizer : Sql.Tokenizer) (path : Path) :
    Outcome :=
  (readSource w encoding path).map fun text => ⟨path.stem, path, Sql.readScript tokenizer text⟩

/-! ## Records -/

/-- What is logged about a table when its definition is read. -/
def tableRecord (t : Sql.Table) : Log.Record :=
  ⟨.debug, .scripts,
    "Parsed table " ++ t.name ++ " (" ++ toString t.columns.length ++ " columns, lines " ++
      toString t.startLine ++ "-" ++ toString t.endLine ++ ")"⟩

def anomalyRecord (a : Sql.Anomaly) : Log.Record :=
  ⟨.warning, .scripts, "Structural anomaly at " ++ a.describe⟩

namespace Source

/-- What is logged about a table of a database. -/
def tableRecord (s : Source) (t : Sql.Table) : Log.Record :=
  let comment := if t.comment.isEmpty then "" else " - " ++ t.comment
  ⟨.debug, .extraction, s.database ++ ": table " ++ t.name ++ comment⟩

/-- What is logged about a source as a whole. -/
def summaryRecord (s : Source) : Log.Record :=
  let skipped :=
    match s.reading.anomalies with
    | [] => ""
    | anomalies => ", " ++ toString anomalies.length ++ " skipped items"
  ⟨.info, .extraction,
    "Extracted from " ++ s.path.name ++ ": " ++ toString s.reading.tables.length ++ " tables" ++
      skipped⟩

/-- All that is logged about a source. -/
def records (s : Source) : List Log.Record :=
  s.reading.tables.map Extraction.tableRecord ++ s.reading.anomalies.map anomalyRecord ++
    s.reading.tables.map s.tableRecord ++ [s.summaryRecord]

end Source

/-- All that is logged about the reading of a source. -/
def outcomeRecords : Outcome → List Log.Record
  | .ok source => source.records
  | .error failure => [⟨.warning, .extraction, failure.message⟩]

end TableDocs.Extraction
