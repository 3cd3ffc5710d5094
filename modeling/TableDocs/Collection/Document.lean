import TableDocs.Collection.Basic
import TableDocs.Json.Printer

/-!
# TableDocs — collections as JSON documents

The document of a collection lists its databases and ends with the totals. The totals follow from
the databases, so they are written and never read.
-/

namespace TableDocs

open TableDocs.Data

def ColumnDoc.toValue (c : ColumnDoc) : Value :=
  .object
    [("name", .text c.name), ("type", .text c.type), ("nullable", .bool c.nullable),
      ("isPrimaryKey", .bool c.isPrimaryKey), ("comment", .text c.comment)]

def TableDoc.toValue (t : TableDoc) : Value :=
  .object
    [("tableName", .text t.name), ("comment", .text t.comment),
      ("columns", .list (t.columns.map ColumnDoc.toValue))]

def DatabaseDoc.toValue (d : DatabaseDoc) : Value :=
  .object [("database", .text d.name), ("tables", .list (d.tables.map TableDoc.toValue))]

namespace Collection

def toValue (c : Collection) : Value :=
  .object
    [("databases", .list (c.databases.map DatabaseDoc.toValue)),
      ("totalDatabases", .int c.totalDatabases), ("totalTables", .int c.totalTables)]

/-- The document as text that ends its last line. -/
def toJson (indent : Int) (c : Collection) : String :=
  String.ofList (Json.print indent 0 c.toValue ++ ['\n'])

end Collection

end TableDocs
