import TableDocs.Collection.Basic
import TableDocs.Markdown.Labels
import TableDocs.Text.Blank

/-!
# TableDocs — collections as Markdown

The document has a title, a heading for each database and each table, and below each table heading
its description and a table with one row per column. Text inside a row stands on one line, and its
pipes are escaped.
-/

namespace TableDocs.Markdown

/-- Escapes the pipes of a text. -/
def escapePipes (text : List Char) : List Char :=
  text.flatMap fun c => if c = '|' then ['\\', '|'] else [c]

/-- Joins the lines of a text by spaces. -/
def joinLines (text : List Char) : List Char :=
  List.intercalate [' '] (Text.lines text)

/-- A text as a cell of a row: pipes escaped, on one line, without blanks around it. -/
def cell (text : String) : List Char :=
  Text.trimWhere Text.isBlank (joinLines (escapePipes text.toList))

/-- Cells between pipes. -/
def row (cells : List (List Char)) : List Char :=
  cells.flatMap (fun c => ['|', ' '] ++ c ++ [' ']) ++ ['|']

def headerRow (l : Labels) : List Char :=
  row [l.column.toList, l.type.toList, l.nullable.toList, l.primaryKey.toList, l.comment.toList]

def separatorRow : List Char :=
  "|---|---|---|---|---|".toList

def columnRow (l : Labels) (c : ColumnDoc) : List Char :=
  row [cell c.name, cell c.type, (l.answer c.nullable).toList, (l.answer c.isPrimaryKey).toList,
    cell c.comment]

def databaseHeading (l : Labels) (d : DatabaseDoc) : List Char :=
  "## ".toList ++ l.database.toList ++ ": ".toList ++ d.name.toList

def tableHeading (l : Labels) (t : TableDoc) : List Char :=
  "### ".toList ++ l.table.toList ++ ": ".toList ++ t.name.toList

/-- The description of a table; a comment that is empty as a cell has a word of its own. -/
def description (l : Labels) (t : TableDoc) : List Char :=
  let text := cell t.comment
  "**".toList ++ l.tableComment.toList ++ ":** ".toList ++
    (if text.isEmpty then l.none.toList else text)

/-- The pieces of a table's section; each stands on a line of its own, and an empty one leaves a
line free. -/
def tablePieces (l : Labels) (t : TableDoc) : List (List Char) :=
  [tableHeading l t, [], description l t, [], headerRow l, separatorRow] ++
    t.columns.map (columnRow l) ++ [[]]

def databasePieces (l : Labels) (d : DatabaseDoc) : List (List Char) :=
  [databaseHeading l d, []] ++ d.tables.flatMap (tablePieces l)

def pieces (l : Labels) (c : Collection) : List (List Char) :=
  ["# ".toList ++ l.title.toList, []] ++ c.databases.flatMap (databasePieces l)

/-- Drops the line ends at the end of a text. -/
def dropLineEnds (text : List Char) : List Char :=
  (text.reverse.dropWhile (· == '\n')).reverse

/-- The document of a collection, with one line end at its end. -/
def render (locale : Locale) (c : Collection) : String :=
  String.ofList
    (dropLineEnds (List.intercalate ['\n'] (pieces locale.labels c)) ++ ['\n'])

/-- Renders in the locale of a name; the message tells an unknown one. -/
def renderIn (locale : String) (c : Collection) : Except String String :=
  match Locale.ofName? locale with
  | some l => .ok (render l c)
  | none => .error ("Unsupported locale: " ++ locale)

end TableDocs.Markdown
