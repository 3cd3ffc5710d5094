import TableDocs.Collection.Loading

/-!
# TableDocs — collections from unchecked records

A caller may describe sources by values that nobody has checked. Each column is checked on its own,
then its table, then the database; the first record with problems ends it.
-/

namespace TableDocs

open TableDocs.Data
open TableDocs.Validation

structure ColumnRecord where
  name : Value
  type : Value
  nullable : Value := .bool true
  isPrimaryKey : Value := .bool false
  comment : Value := .text ""

structure TableRecord where
  name : Value
  comment : Value := .text ""
  columns : List ColumnRecord := []

structure SourceRecord where
  database : Value
  tables : List TableRecord := []

namespace ColumnRecord

def check (r : ColumnRecord) : Checked ColumnDoc :=
  ColumnDoc.ofMembers
    [("name", r.name), ("type", r.type), ("nullable", r.nullable),
      ("is_primary_key", r.isPrimaryKey), ("comment", r.comment)]

end ColumnRecord

/-- Checks records in turn and stops at the first with problems. -/
def checkEach {α β : Type} (check : α → Checked β) : List α → Checked (List β)
  | [] => .valid []
  | r :: rs => (check r).bind fun b => (checkEach check rs).map (b :: ·)

namespace TableRecord

def check (r : TableRecord) : Checked TableDoc :=
  (checkEach ColumnRecord.check r.columns).bind fun columns =>
    (TableDoc.ofMembers .program [("table_name", r.name), ("comment", r.comment)]).map fun t =>
      { t with columns }

end TableRecord

namespace SourceRecord

def check (r : SourceRecord) : Checked DatabaseDoc :=
  (checkEach TableRecord.check r.tables).bind fun tables =>
    (DatabaseDoc.ofMembers .program [("database", r.database)]).map fun d => { d with tables }

end SourceRecord

namespace Collection

/-- The collection of unchecked records. -/
def ofRecords (records : List SourceRecord) : Checked Collection :=
  (checkEach SourceRecord.check records).map Collection.mk

end Collection

end TableDocs
