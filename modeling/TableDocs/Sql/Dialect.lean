import TableDocs.Text.Blank

/-!
# TableDocs — dialects of SQL

Scripts are cut into tokens by the rules of their dialect. This module names the dialects and says,
as one record each, where the rules differ: which marks quote names and texts, how comments end,
which numbers and words are special. Four dialects have rules of their own and all others are cut by
the general ones. For the names in `Dialect.namedGeneral` these stand in: such a dialect may quote
names with other marks or know other words, which is up to whoever gives a tokenizer for its
scripts.
-/

namespace TableDocs.Sql

inductive Dialect
  | general
  | mysql
  | postgres
  | sqlite
  | tsql
  deriving DecidableEq, Repr

/-- How the text between two quotes stands for the literal's value. -/
inductive Quoting
  /-- Only a doubled closing quote is special and stands for one. -/
  | plain
  /-- A backslash changes the meaning of the character after it. -/
  | backslash
  /-- Backslash sequences name bytes and code points. -/
  | escaped
  deriving DecidableEq, Repr

/-- A string literal opens with a mark, whose last character is also its closing quote. -/
structure StringForm where
  /-- In upper case. -/
  mark : String
  quoting : Quoting
  /-- The base of the number that the literal has to be, where it has to be one. -/
  base? : Option Nat := none

/-- Where the dialects differ in how they cut a text into tokens. -/
structure LexRules where
  /-- Opening and closing quotes of names. -/
  nameQuotes : List (Char × Char)
  strings : List StringForm
  /-- A dollar opens a text that ends at the same mark again. -/
  dollarQuotes : Bool := false
  /-- Comments inside comments are counted. -/
  nestedComments : Bool := false
  hashComments : Bool := false
  /-- Two dashes open a comment only with a blank or a control character after them. -/
  spacedDashComments : Bool := false
  /-- A bare carriage return ends a line comment, as a line feed does. -/
  returnEndsComment : Bool := true
  /-- A comment opened with a plus sign is a hint and may count as a word. -/
  hints : Bool := true
  /-- Numbers of base two, or sixteen, may be written with a leading zero and a letter. -/
  binaryNumbers : Bool := false
  hexNumbers : Bool := false
  /-- A word may start with digits. -/
  digitWords : Bool := false
  /-- Marks that a word may hold after its first character. -/
  wordMarks : List Char := []
  /-- Words and marks that are one token although blanks or marks stand inside. -/
  phrases : List String
  /-- Words whose statement is opaque up to its end. -/
  commands : List String
  /-- Words after which a command may stand as it may at the start of a statement. -/
  blockOpeners : List String := ["BEGIN"]

namespace Dialect

/-- Phrases of every dialect. -/
def sharedPhrases : List String :=
  ["\x7b%", "\x7b%+", "\x7b%-", "%\x7d", "+%\x7d", "-%\x7d",
    "\x7b\x7b+", "\x7b\x7b-", "+\x7d\x7d", "-\x7d\x7d",
    "&<", "&>", "==", "::", "?::", "||", "|>", ">=", "<=", "<>", "!=", ":=", "<=>", "->", "->>",
    "=>", "#>", "#>>", "<->", "&&", "??", "~~~", "~~", "~~*", "~*", "-|-",
    "CHARACTER SET", "CLUSTER BY", "CONNECT BY", "DISTRIBUTE BY", "FOREIGN KEY", "GROUP BY",
    "GROUPING SETS", "ORDER BY", "PARTITION BY", "PARTITIONED BY", "PRIMARY KEY", "SIMILAR TO",
    "SORT BY", "SQL SECURITY", "START WITH", "DOUBLE PRECISION", "CHARACTER VARYING",
    "CHAR VARYING", "USER-DEFINED", "FOR VERSION", "FOR TIMESTAMP", "NEXT VALUE FOR"]

/-- Commands of the general rules. -/
def sharedCommands : List String :=
  ["CALL", "EXPLAIN", "OPTIMIZE", "PREPARE", "VACUUM", "EXECUTE", "FETCH", "SHOW", "RENAME"]

/-- Plain single quotes, also after the letter of national text. -/
def plainStrings : List StringForm :=
  [⟨"'", .plain, none⟩, ⟨"N'", .plain, none⟩]

/-- The rules of a dialect. -/
def rules : Dialect → LexRules
  | general =>
    { nameQuotes := [('"', '"')]
      strings := plainStrings
      nestedComments := true
      phrases := sharedPhrases
      commands := sharedCommands }
  | mysql =>
    { nameQuotes := [('\x60', '\x60')]
      strings :=
        [⟨"'", .backslash, none⟩, ⟨"\"", .backslash, none⟩, ⟨"N'", .backslash, none⟩,
          ⟨"N\"", .backslash, none⟩, ⟨"B'", .backslash, some 2⟩, ⟨"X'", .backslash, some 16⟩]
      hashComments := true
      spacedDashComments := true
      returnEndsComment := false
      binaryNumbers := true
      hexNumbers := true
      digitWords := true
      phrases := sharedPhrases ++
        ["@@", "LOCK TABLES", "UNLOCK TABLES", "MEMBER OF", "SOUNDS LIKE", "SIGNED INTEGER",
          "UNSIGNED INTEGER"]
      commands :=
        ["CALL", "OPTIMIZE", "PREPARE", "VACUUM", "EXECUTE", "FETCH", "RENAME", "REPLACE",
          "LOCK TABLES", "UNLOCK TABLES"]
      blockOpeners := ["BEGIN", "START"] }
  | postgres =>
    { nameQuotes := [('"', '"')]
      strings := plainStrings ++
        [⟨"B'", .plain, some 2⟩, ⟨"X'", .plain, some 16⟩, ⟨"E'", .escaped, none⟩,
          ⟨"U&'", .plain, none⟩]
      dollarQuotes := true
      nestedComments := true
      hints := false
      binaryNumbers := true
      hexNumbers := true
      wordMarks := ['$']
      phrases := sharedPhrases ++
        ["~", "@@", "@>", "<@", "?&", "?|", "#-", "|/", "||/", "^@", "CONSTRAINT TRIGGER"]
      commands := sharedCommands ++
        ["DECLARE", "DO", "EXEC", "REINDEX", "RESET", "REFRESH", "CONSTRAINT TRIGGER"] }
  | sqlite =>
    { nameQuotes := [('"', '"'), ('[', ']'), ('\x60', '\x60')]
      strings := plainStrings ++ [⟨"X'", .plain, some 16⟩]
      hexNumbers := true
      phrases := sharedPhrases ++ ["INDEXED BY"]
      commands := sharedCommands ++ ["REPLACE"] }
  | tsql =>
    { nameQuotes := [('[', ']'), ('"', '"')]
      strings := plainStrings
      nestedComments := true
      hexNumbers := true
      wordMarks := ['@', '$', '#']
      phrases := sharedPhrases ++
        ["CLUSTERED INDEX", "NONCLUSTERED INDEX", "FOR SYSTEM_TIME", "UPDATE STATISTICS"]
      commands := sharedCommands ++ ["GO", "PRINT", "EXEC", "END", "UPDATE STATISTICS"] }

/-- Dialects that are known by name but cut by the general rules. -/
def namedGeneral : List String :=
  ["athena", "bigquery", "clickhouse", "databricks", "dax", "doris", "dremio", "drill", "druid",
    "duckdb", "dune", "exasol", "fabric", "hive", "materialize", "oracle", "presto", "prql",
    "redshift", "risingwave", "singlestore", "snowflake", "solr", "spark", "spark2", "starrocks",
    "tableau", "teradata", "trino"]

/-- The dialect of a name, which blanks may surround; no name at all means the general dialect. -/
def ofName? (name : String) : Option Dialect :=
  match Text.trim name with
  | "" => some general
  | "mysql" => some mysql
  | "postgres" => some postgres
  | "sqlite" => some sqlite
  | "tsql" => some tsql
  | other => if namedGeneral.contains other then some general else none

end Dialect

end TableDocs.Sql
