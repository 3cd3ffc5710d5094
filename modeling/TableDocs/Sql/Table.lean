import TableDocs.Text.Blank

/-!
# TableDocs — tables, columns and anomalies

What a script tells about its tables, and the record of everything that was skipped on the way.
-/

namespace TableDocs.Sql

structure Column where
  name : String
  /-- The type as it is written, blanks collapsed. -/
  type : String
  nullable : Bool := true
  isPrimaryKey : Bool := false
  comment : String := ""
  /-- The default value as it is written. -/
  default? : Option String := none
  deriving DecidableEq, Repr

structure Table where
  name : String
  columns : List Column := []
  comment : String := ""
  /-- The lines of the statement's first and last lexeme. -/
  startLine : Nat := 0
  endLine : Nat := 0
  deriving DecidableEq, Repr

/-- Why something was skipped. -/
inductive Cause
  | unclosedBody
  | missingTerminator
  | unknownOptions
  | unbalancedParentheses
  | noColumnName
  | noColumnType
  | unbalancedBrackets
  | noTokens
  deriving DecidableEq, Repr

namespace Cause

/-- What was skipped: a table, a column or the whole source. -/
def subject : Cause → String
  | unclosedBody | missingTerminator | unknownOptions => "table"
  | unbalancedParentheses | noColumnName | noColumnType | unbalancedBrackets => "column"
  | noTokens => "source"

def reason : Cause → String
  | unclosedBody => "unbalanced parentheses in table body"
  | missingTerminator => "missing statement terminator"
  | unknownOptions => "unrecognized table options"
  | unbalancedParentheses => "unbalanced parentheses"
  | noColumnName => "not a column identifier"
  | noColumnType => "missing column type"
  | unbalancedBrackets => "unbalanced brackets"
  | noTokens => "cannot tokenize source"

end Cause

/-- A part of a script that was skipped. -/
structure Anomaly where
  cause : Cause
  line : Nat
  /-- The text that was skipped, on one line and of bounded length. -/
  fragment : String
  deriving DecidableEq, Repr

namespace Anomaly

/-- The most characters of a fragment. -/
def fragmentLimit : Nat := 80

/-- Brings a text into the form of a fragment: its words one space apart, and a cut marked by three
dots. -/
def shorten (text : List Char) : List Char :=
  let line := Text.collapse text
  if line.length > fragmentLimit then line.take (fragmentLimit - 3) ++ ['.', '.', '.'] else line

/-- The record for a skipped text that starts on a line. -/
def ofText (cause : Cause) (line : Nat) (text : List Char) : Anomaly :=
  ⟨cause, line, String.ofList (shorten text)⟩

/-- The record as one line of text. -/
def describe (a : Anomaly) : String :=
  "line " ++ toString a.line ++ ": skipped " ++ a.cause.subject ++ " (" ++ a.cause.reason ++
    "): " ++ a.fragment

end Anomaly

end TableDocs.Sql
