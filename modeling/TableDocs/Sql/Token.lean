import TableDocs.Sql.Dialect

/-!
# TableDocs — tokens

A token is a stretch of the script that belongs together: a mark, a quoted name, a literal, or one
or more words. Blanks and comments are no tokens. A script that cannot be cut into tokens has one
fault, whose message quotes the text around the place where reading stopped.
-/

namespace TableDocs.Sql

/-- Marks that the grammar of statements looks at. All other marks are words. -/
inductive Punct
  | openParen
  | closeParen
  | openBracket
  | closeBracket
  | comma
  | semicolon
  | equals
  | dot
  deriving DecidableEq, Repr

/-- What a token of words means for the tokens after it. -/
inductive WordRole
  | plain
  /-- At the start of a statement its words up to the end of the statement are one literal. -/
  | command
  /-- A command may follow. -/
  | blockOpener
  /-- The mark that introduces a parameter: a number after it holds no point. -/
  | parameterMark
  /-- A hint may follow. -/
  | hintable
  deriving DecidableEq, Repr

inductive TokenKind
  | punct (p : Punct)
  | name (text : String)
  | literal (text : String)
  | words (role : WordRole)
  deriving DecidableEq, Repr

/-- A token with its place: the characters from `start` up to, not including, `stop`. -/
structure Token where
  kind : TokenKind
  start : Nat
  stop : Nat
  /-- The line on which the token ends. -/
  line : Nat
  deriving DecidableEq, Repr

/-- Why a script cannot be cut into tokens. -/
inductive TokenFault
  | unclosedQuote
  /-- The script ends right after an escaped quote, inside the literal. -/
  | endsInEscape
  /-- The script ends where a comment, a dollar mark or a backslash sequence needs more of it. -/
  | cutShort
  /-- A literal of digits, with `past` characters up to and including its closing quote, holds
  something else. -/
  | badDigits (past : Nat)
  deriving DecidableEq, Repr

namespace TokenFault

/-- How many characters were read when the fault showed, in a script of `size` characters. -/
def reach (size : Nat) : TokenFault → Nat
  | unclosedQuote => size
  | endsInEscape => size - 1
  | cutShort => size + 1
  | badDigits past => past

/-- Up to fifty characters on both sides of the place where reading stopped. The last character of
the script is never quoted. -/
def context (script : List Char) (fault : TokenFault) : List Char :=
  let size := script.length
  let reached := fault.reach size
  (script.take (min (reached + 50) (size - 1))).drop (reached - 50)

def message (script : List Char) (fault : TokenFault) : String :=
  "Error tokenizing '" ++ String.ofList (fault.context script) ++ "'"

end TokenFault

end TableDocs.Sql
