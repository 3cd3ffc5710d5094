import TableDocs.Sql.Token
import TableDocs.Text.Digit

/-!
# TableDocs — pieces of a script

A script is read piece by piece: a blank, a comment or one token. This module holds what a piece is,
the marks that end a word, and how line ends are counted.
-/

namespace TableDocs.Sql

/-- The next stretch of a script; without a kind it is no token. -/
structure Piece where
  /-- How many characters it takes; at least one. -/
  size : Nat
  /-- How many lines it ends. -/
  lineEnds : Nat
  kind? : Option TokenKind

namespace Piece

/-- Marks that are tokens by themselves and end the word before them. -/
def singleMarks : List Char :=
  ['(', ')', '[', ']', '\x7b', '\x7d', '&', '^', ':', ',', '-', '.', '=', '>', '<', '%', '!', '|',
    '+', ';', '/', '\\', '*', '~', '?', '@', '#', '\'', '\x60', '"']

def isSingleMark (rules : LexRules) (c : Char) : Bool :=
  singleMarks.contains c || (rules.dollarQuotes && c == '$')

/-- Line ends among the first `n` characters. A carriage return before a line feed is part of one
line end, which the line feed counts. -/
def lineEndsIn : Nat → List Char → Nat
  | 0, _ => 0
  | _, [] => 0
  | n + 1, '\n' :: rest => lineEndsIn n rest + 1
  | n + 1, '\r' :: rest => lineEndsIn n rest + (if rest.head? == some '\n' then 0 else 1)
  | n + 1, _ :: rest => lineEndsIn n rest

/-- Line feeds among the first `n` characters: quoted text counts these alone. -/
def lineFeedsIn (n : Nat) (cs : List Char) : Nat :=
  (cs.take n).count '\n'

/-- Does a character end the word before it? -/
def endsWord (rules : LexRules) (c : Char) : Bool :=
  Text.isBlank c || (isSingleMark rules c && !rules.wordMarks.contains c)

/-- How a mark that stands alone is read. -/
def markKind (c : Char) : TokenKind :=
  match c with
  | '(' => .punct .openParen
  | ')' => .punct .closeParen
  | '[' => .punct .openBracket
  | ']' => .punct .closeBracket
  | ',' => .punct .comma
  | ';' => .punct .semicolon
  | '=' => .punct .equals
  | '.' => .punct .dot
  | '@' => .words .parameterMark
  | _ => .words .plain

/-- The role of a word or phrase in upper case. -/
def roleOf (rules : LexRules) (word : String) : WordRole :=
  if rules.commands.contains word then .command
  else if rules.blockOpeners.contains word then .blockOpener
  else if ["SELECT", "INSERT", "UPDATE", "DELETE"].contains word then .hintable
  else .plain

end Piece

end TableDocs.Sql
