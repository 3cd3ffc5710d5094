/-!
# TableDocs — labels of the rendered document

The words that the rendered document uses besides the text of the collection, in each language.
-/

namespace TableDocs.Markdown

/-- Languages of the labels. -/
inductive Locale
  | en
  | zh
  deriving DecidableEq, Repr

namespace Locale

/-- The names of all locales. -/
def names : List String := ["en", "zh"]

def ofName? : String → Option Locale
  | "en" => some en
  | "zh" => some zh
  | _ => none

def name : Locale → String
  | en => "en"
  | zh => "zh"

end Locale

structure Labels where
  title : String
  database : String
  table : String
  tableComment : String
  /-- Stands for a table comment that is empty. -/
  none : String
  column : String
  type : String
  nullable : String
  primaryKey : String
  comment : String
  yes : String
  no : String

/-- The labels of a locale. -/
def Locale.labels : Locale → Labels
  | .en =>
    { title := "Database Schema"
      database := "Database"
      table := "Table"
      tableComment := "Description"
      none := "None"
      column := "Column"
      type := "Type"
      nullable := "Nullable"
      primaryKey := "Primary Key"
      comment := "Comment"
      yes := "Yes"
      no := "No" }
  | .zh =>
    { title := "数据库表结构文档"
      database := "数据库"
      table := "表名"
      tableComment := "表说明"
      none := "无"
      column := "字段名"
      type := "数据类型"
      nullable := "可空"
      primaryKey := "主键"
      comment := "说明"
      yes := "是"
      no := "否" }

/-- The word for a truth value. -/
def Labels.answer (l : Labels) (b : Bool) : String :=
  if b then l.yes else l.no

end TableDocs.Markdown
