import TableDocs.Extraction.Pool
import TableDocs.Extraction.Source

/-!
# TableDocs — several sources

Several sources are read one after the other or by a pool of workers. Either way there is one
outcome for each path, in the order of the paths; only the order of the records depends on the
workers.
-/

namespace TableDocs.Extraction

open TableDocs.Files

/-- The sources that were read and the ones that could not be, both in the order of their paths. -/
structure Outcomes where
  sources : List Source
  failures : List Failure
  deriving DecidableEq, Repr

namespace Outcomes

def ofList (outcomes : List Outcome) : Outcomes :=
  ⟨Sql.successes outcomes, Sql.failures outcomes⟩

end Outcomes

/-- What is logged when a pool of workers starts. -/
def poolRecord : Log.Record :=
  ⟨.debug, .workers, "Using selector: EpollSelector"⟩

/-- Reads sources in turn. -/
def extractInTurn (extract : Path → Outcome) (paths : List Path) : Log.Logged Outcomes :=
  let outcomes := paths.map extract
  ⟨.ofList outcomes, outcomes.flatMap outcomeRecords⟩

/-- Reads sources by a pool of workers. -/
def extractByPool (schedule : Schedule) (workers : Nat) (extract : Path → Outcome)
    (paths : List Path) : Log.Logged Outcomes :=
  let results := Pool.run schedule workers extract paths
  ⟨.ofList (Pool.gather paths.length results),
    poolRecord :: results.flatMap fun (_, outcome) => outcomeRecords outcome⟩

/-- Reads sources; several workers and several sources make a pool. -/
def extractSources (w : Workspace) (encoding : Encoding) (tokenizer : Sql.Tokenizer)
    (schedule : Schedule) (workers : Nat) (paths : List Path) : Log.Logged Outcomes :=
  let extract := extractSource w encoding tokenizer
  if workers > 1 && paths.length > 1 then extractByPool schedule workers extract paths
  else extractInTurn extract paths

end TableDocs.Extraction
