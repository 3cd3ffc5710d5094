import TableDocs.Collection.Basic
import TableDocs.Extraction.Sources

/-!
# TableDocs — reports of extractions

A report tells how many sources were found, which of them were read and which were not, and holds
the collection of what was read.
-/

namespace TableDocs.Extraction

structure Report where
  collection : Collection
  sources : List Source
  failures : List Failure
  /-- How many sources were found. -/
  discovered : Nat
  deriving DecidableEq, Repr

namespace Report

/-- The report on the outcomes of all sources that were found. -/
def ofOutcomes (discovered : Nat) (o : Outcomes) : Report :=
  { collection := .ofSources (o.sources.map fun s => (s.database, s.reading.tables))
    sources := o.sources
    failures := o.failures
    discovered }

/-- How many items were skipped in all sources. -/
def anomalyCount (r : Report) : Nat :=
  (r.sources.flatMap fun s => s.reading.anomalies).length

/-- The lines that summarise a report. -/
def summary (r : Report) : List String :=
  let counts :=
    [("Sources found", r.discovered), ("Databases extracted", r.collection.totalDatabases),
      ("Tables extracted", r.collection.totalTables), ("Skipped items", r.anomalyCount),
      ("Failed sources", r.failures.length)]
  let part (title : String) (items : List String) : List String :=
    if items.isEmpty then [] else "" :: title :: items.map ("  - " ++ ·)
  counts.map (fun (label, count) => label ++ ": " ++ toString count) ++
    part "Per database:"
      (r.sources.map fun s =>
        s.database ++ ": " ++ toString s.reading.tables.length ++ " tables") ++
    part "Failures:" (r.failures.map fun f => f.path.toString ++ ": " ++ f.reason)

end Report

end TableDocs.Extraction
