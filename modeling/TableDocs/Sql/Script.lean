import TableDocs.Sql.ColumnDef
import TableDocs.Sql.Header
import TableDocs.Sql.PrimaryKey
import TableDocs.Sql.TableOptions

/-!
# TableDocs — table definitions of a script

`scan` walks the lexemes of a script and stops at each header. A definition whose body, end and
options can be read gives a table, and the walk goes on behind its semicolon; any other one is
reported and the walk goes on right behind its opening parenthesis.
-/

namespace TableDocs.Sql

/-- Items of a body that define no column. -/
def isStructural (item : List Lexeme) : Bool :=
  ["UNIQUE", "KEY", "INDEX", "CONSTRAINT", "FULLTEXT", "SPATIAL", "CHECK"].contains
      (Lexeme.keywordAt item) ||
    (["PRIMARY", "FOREIGN"].contains (Lexeme.keywordAt item) &&
      Lexeme.keywordAt (item.drop 1) = "KEY")

/-- Reads an item of a body: a column, or the anomaly of what cannot be read as one. -/
def readItem (script : Array Char) (keys : List String) (item : List Lexeme) :
    Except Anomaly Column :=
  match ColumnDef.read script keys item with
  | .ok column => .ok column
  | .error cause =>
    match item with
    | [] => .error (.ofText cause 0 [])
    | first :: rest =>
      .error (.ofText cause first.line (first.sliceTo script (rest.getLastD first)))

/-- The results of a body's items that define columns, in source order. -/
def readBody (script : Array Char) (body : List Lexeme) : List (Except Anomaly Column) :=
  ((Group.segments body).filter fun item => !item.isEmpty && !isStructural item).map
    (readItem script (PrimaryKey.keyNames body))

/-- The results that are values. -/
def successes {ε α : Type} (results : List (Except ε α)) : List α :=
  results.filterMap fun
    | .ok a => some a
    | .error _ => none

/-- The results that are errors. -/
def failures {ε α : Type} (results : List (Except ε α)) : List ε :=
  results.filterMap fun
    | .ok _ => none
    | .error e => some e

/-- What the walk through a script finds at a header. -/
inductive Finding
  /-- A table, with the items of its body that were skipped. -/
  | table (table : Table) (skipped : List Anomaly)
  | broken (anomaly : Anomaly)
  deriving DecidableEq, Repr

namespace Finding

def table? : Finding → Option Table
  | table t _ => some t
  | broken _ => none

def anomalies : Finding → List Anomaly
  | table _ skipped => skipped
  | broken a => [a]

end Finding

/-- Reads the definition that a header starts: the table, the skipped items and the lexemes behind
the semicolon. -/
def readDefinition (script : Array Char) (create : Lexeme) (header : Header) :
    Except Anomaly (Table × List Anomaly × List Lexeme) :=
  let marker := create.sliceTo script header.opening
  match Group.close? 0 header.rest with
  | none => .error (.ofText .unclosedBody create.line marker)
  | some body =>
    match Lexeme.splitAt? .semicolon body.rest with
    | none => .error (.ofText .missingTerminator create.line marker)
    | some (trailer, terminator, after) =>
      match TableOptions.read? trailer with
      | none =>
        .error (.ofText .unknownOptions create.line (body.close.sliceTo script terminator))
      | some options =>
        let items := readBody script body.inner
        .ok
          ({ name := header.name
             columns := successes items
             comment := (TableOptions.value? "COMMENT" options).getD ""
             startLine := create.line
             endLine := terminator.line },
            failures items, after)

theorem length_of_readDefinition {script : Array Char} {create : Lexeme} {header : Header}
    {table : Table} {skipped : List Anomaly} {after : List Lexeme}
    (h : readDefinition script create header = .ok (table, skipped, after)) :
    after.length < header.rest.length := by
  unfold readDefinition at h
  simp only at h
  split at h
  · simp at h
  · rename_i body hb
    split at h
    · simp at h
    · rename_i trailer terminator rest hs
      split at h
      · simp at h
      · simp only [Except.ok.injEq, Prod.mk.injEq] at h
        have h1 := Group.length_of_close? hb
        have h2 := Lexeme.length_of_splitAt? hs
        rw [← h.2.2]
        omega

/-- Walks through the lexemes of a script. -/
def scan (script : Array Char) (ls : List Lexeme) : List Finding :=
  match ls with
  | [] => []
  | l :: rest =>
    match _hh : Header.read? (l :: rest) with
    | none => scan script rest
    | some header =>
      match _hd : readDefinition script l header with
      | .error anomaly => .broken anomaly :: scan script header.rest
      | .ok (table, skipped, after) => .table table skipped :: scan script after
termination_by ls.length
decreasing_by
  · simp
  · exact Header.length_of_read? _hh
  · exact Nat.lt_trans (length_of_readDefinition _hd) (Header.length_of_read? _hh)

/-- The tables of a script and everything that was skipped, both in source order. -/
structure ScriptReading where
  tables : List Table := []
  anomalies : List Anomaly := []
  deriving DecidableEq, Repr

namespace ScriptReading

/-- Sorts findings into tables and anomalies. -/
def ofFindings (findings : List Finding) : ScriptReading :=
  ⟨findings.filterMap Finding.table?, findings.flatMap Finding.anomalies⟩

/-- The reading of a script that cannot be cut into tokens: one anomaly. -/
def ofFault (script : List Char) (fault : TokenFault) : ScriptReading :=
  ⟨[], [.ofText .noTokens 1 (fault.message script).toList]⟩

end ScriptReading

/-- Reads a whole script. -/
def readScript (tokenizer : Tokenizer) (text : String) : ScriptReading :=
  let script := text.toList.toArray
  match Lexeme.ofScript tokenizer script with
  | .error fault => .ofFault text.toList fault
  | .ok lexemes => .ofFindings (scan script lexemes)

/-- The tables of a script in source order. -/
def tablesOf (tokenizer : Tokenizer) (text : String) : List Table :=
  (readScript tokenizer text).tables

/-- Reads the text between the parentheses of a table definition: its columns and the items that
were skipped. -/
def columnsOf (tokenizer : Tokenizer) (text : String) :
    Except TokenFault (List Column × List Anomaly) :=
  let script := text.toList.toArray
  (Lexeme.ofScript tokenizer script).map fun lexemes =>
    let items := readBody script lexemes
    (successes items, failures items)

/-- The names of the key columns of a body, each once and in the order of code points. -/
def primaryKeysOf (tokenizer : Tokenizer) (text : String) : Except TokenFault (List String) :=
  let script := text.toList.toArray
  (Lexeme.ofScript tokenizer script).map fun lexemes =>
    (PrimaryKey.keyNames lexemes).eraseDups.mergeSort fun a b => decide (a ≤ b)

end TableDocs.Sql
