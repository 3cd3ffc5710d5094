import TableDocs.Collection.Basic
import TableDocs.Json.Reader
import TableDocs.Validation.Coerce

/-!
# TableDocs — loading collections

A collection is read from the members that it declares; all others are passed over. Some members
have two names, and a comment may be null.
-/

namespace TableDocs

open TableDocs.Data
open TableDocs.Validation

def ColumnDoc.ofMembers (members : List (String × Value)) : Checked ColumnDoc :=
  ((((((required members ["name"] asText).map ColumnDoc.mk).andThen
    (required members ["type"] asText)).andThen
    (optional members ["nullable"] true asBool)).andThen
    (optional members ["isPrimaryKey", "is_primary_key"] false asBool)).andThen
    (optional members ["comment"] "" asTextOrNull))

def TableDoc.ofMembers (origin : Origin) (members : List (String × Value)) : Checked TableDoc :=
  ((((required members ["tableName", "table_name"] asText).map TableDoc.mk).andThen
    (optional members ["comment"] "" asTextOrNull)).andThen
    (optional members ["columns"] []
      (asList origin (asObject origin "ColumnDoc" ColumnDoc.ofMembers))))

def DatabaseDoc.ofMembers (origin : Origin) (members : List (String × Value)) :
    Checked DatabaseDoc :=
  ((required members ["database"] asText).map DatabaseDoc.mk).andThen
    (optional members ["tables"] []
      (asList origin (asObject origin "TableDoc" (TableDoc.ofMembers origin))))

namespace Collection

/-- The name of the model in reports of problems. -/
def modelName : String := "SchemaCollection"

def ofMembers (origin : Origin) (members : List (String × Value)) : Checked Collection :=
  let databases := asList origin (asObject origin "DatabaseDoc" (DatabaseDoc.ofMembers origin))
  (optional members ["databases"] [] databases).map Collection.mk

/-- The collection that the value of a JSON document denotes. -/
def ofValue (v : Value) : Checked Collection :=
  asObject .document modelName (ofMembers .document) v

/-- Why a text is no collection. -/
inductive LoadFault
  | invalidJson
  | problems (problems : List Problem)
  deriving DecidableEq, Repr

namespace LoadFault

/-- How many problems there are; text that is no JSON is one. -/
def count : LoadFault → Nat
  | invalidJson => 1
  | problems ps => ps.length

end LoadFault

/-- Loads a collection from the text of its document. -/
def load (text : String) (parse? : Json.Parser := Json.parse?) : Except LoadFault Collection :=
  match parse? text.toList with
  | none => .error .invalidJson
  | some v =>
    match ofValue v with
    | .valid c => .ok c
    | .invalid ps => .error (.problems ps)

end Collection

end TableDocs
