/-!
# TableDocs — log records

A record is a message of a level and a part of the program. Records below the level that is asked
for are dropped.
-/

namespace TableDocs.Log

inductive Level
  | debug
  | info
  | warning
  | error
  deriving DecidableEq, Repr

namespace Level

def name : Level → String
  | debug => "DEBUG"
  | info => "INFO"
  | warning => "WARNING"
  | error => "ERROR"

def all : List Level := [debug, info, warning, error]

def ofName? (s : String) : Option Level :=
  all.find? fun l => l.name = s

/-- The number of a level; the more urgent, the greater. -/
def number : Level → Nat
  | debug => 10
  | info => 20
  | warning => 30
  | error => 40

end Level

/-- Parts of the program that log. -/
inductive Logger
  | scripts
  | extraction
  | rendering
  | commands
  | workers
  deriving DecidableEq, Repr

namespace Logger

def name : Logger → String
  | scripts => "schemadoc.sql_schema.parser"
  | extraction => "schemadoc.sql_schema.extractor"
  | rendering => "schemadoc.render.markdown"
  | commands => "schemadoc.cli.commands"
  | workers => "asyncio"

/-- The file name that a record of this part may show. -/
def file : Logger → String
  | scripts => "parser.py"
  | extraction => "extractor.py"
  | rendering => "markdown.py"
  | commands => "commands.py"
  | workers => "selector_events.py"

end Logger

structure Record where
  level : Level
  logger : Logger
  message : String
  deriving DecidableEq, Repr

/-- Is a record urgent enough? -/
def Record.passes (least : Level) (r : Record) : Bool :=
  least.number ≤ r.level.number

/-- The result of some work with the records that were logged on the way, in order. -/
structure Logged (α : Type) where
  value : α
  records : List Record := []

end TableDocs.Log
