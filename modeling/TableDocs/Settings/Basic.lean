import TableDocs.Data.Value
import TableDocs.Files.Encoding
import TableDocs.Log.Record
import TableDocs.Markdown.Labels
import TableDocs.Sql.Dialect

/-!
# TableDocs — settings

What can be chosen about a run: which files are sources and how they are read, how the collection is
written and rendered, and what is logged. Everything has a default. Settings can be written out as a
value of the same shape that they are read from.
-/

namespace TableDocs

open TableDocs.Data

/-- A choice under the name that asked for it. A choice may have several names, and the one that was
used is kept. -/
structure Named {α : Type} (ofName? : String → Option α) where
  name : String
  choice : α
  ofName?_name : ofName? name = some choice
  deriving DecidableEq

namespace Settings

/-- How sources are found and read. -/
structure Extract where
  /-- Suffixes of sources, in lower case and with their dot. -/
  extensions : List String := [".sql"]
  encoding : Named Files.Encoding.ofName? := ⟨"utf-8", .utf8, by decide +kernel⟩
  recursive : Bool := false
  /-- How many sources may be read at the same time. -/
  workers : Nat := 1
  dialect : Named Sql.Dialect.ofName? := ⟨"mysql", .mysql, by decide +kernel⟩
  deriving DecidableEq

/-- How the collection is written. -/
structure Output where
  indent : Nat := 2
  deriving DecidableEq

/-- How the collection is rendered. -/
structure Render where
  locale : Markdown.Locale := .en
  deriving DecidableEq

/-- What is logged, and as which text. -/
structure Logging where
  level : Log.Level := .info
  layout : String := "%(asctime)s %(levelname)s %(name)s: %(message)s"
  deriving DecidableEq

end Settings

structure Settings where
  extract : Settings.Extract := {}
  output : Settings.Output := {}
  render : Settings.Render := {}
  logging : Settings.Logging := {}
  deriving DecidableEq

namespace Settings

/-! ## Settings as values -/

def Extract.members (s : Extract) : List (String × Value) :=
  [("extensions", .list (s.extensions.map .text)), ("encoding", .text s.encoding.name),
    ("recursive", .bool s.recursive), ("workers", .int s.workers),
    ("dialect", .text s.dialect.name)]

def Output.members (s : Output) : List (String × Value) :=
  [("indent", .int s.indent)]

def Render.members (s : Render) : List (String × Value) :=
  [("locale", .text s.locale.name)]

def Logging.members (s : Logging) : List (String × Value) :=
  [("level", .text s.level.name), ("format", .text s.layout)]

def members (s : Settings) : List (String × Value) :=
  [("extract", .object s.extract.members), ("output", .object s.output.members),
    ("render", .object s.render.members), ("logging", .object s.logging.members)]

end Settings

end TableDocs
