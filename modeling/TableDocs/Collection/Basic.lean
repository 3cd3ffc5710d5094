import TableDocs.Sql.Table

/-!
# TableDocs — collections of documented tables

A collection holds the tables of several databases, one database for each script. It documents what
readers of a schema ask for and leaves out where a table stood and what its defaults were.
-/

namespace TableDocs

structure ColumnDoc where
  name : String
  type : String
  nullable : Bool := true
  isPrimaryKey : Bool := false
  comment : String := ""
  deriving DecidableEq, Repr

structure TableDoc where
  name : String
  comment : String := ""
  columns : List ColumnDoc := []
  deriving DecidableEq, Repr

structure DatabaseDoc where
  name : String
  tables : List TableDoc := []
  deriving DecidableEq, Repr

structure Collection where
  databases : List DatabaseDoc := []
  deriving DecidableEq, Repr

def ColumnDoc.ofColumn (c : Sql.Column) : ColumnDoc :=
  { name := c.name
    type := c.type
    nullable := c.nullable
    isPrimaryKey := c.isPrimaryKey
    comment := c.comment }

def TableDoc.ofTable (t : Sql.Table) : TableDoc :=
  { name := t.name
    comment := t.comment
    columns := t.columns.map ColumnDoc.ofColumn }

namespace Collection

/-- The collection of sources, each a database name with its tables, in order. -/
def ofSources (sources : List (String × List Sql.Table)) : Collection :=
  ⟨sources.map fun (name, tables) => ⟨name, tables.map TableDoc.ofTable⟩⟩

def totalDatabases (c : Collection) : Nat :=
  c.databases.length

def totalTables (c : Collection) : Nat :=
  (c.databases.flatMap fun d => d.tables).length

end Collection

end TableDocs
