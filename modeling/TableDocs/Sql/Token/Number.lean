import TableDocs.Sql.Token.Piece
import TableDocs.Text.CaseMap
import TableDocs.Text.Integer
import TableDocs.Text.WordChar

/-!
# TableDocs — numbers and words of a script

A number starts with a digit of any kind and takes further digits, one point and one exponent. Where
the dialect has them, numbers of base two or sixteen are literals of their digits. A word runs up to
the next blank or mark.
-/

namespace TableDocs.Sql

/-- Where a number stands in its exponent. -/
inductive ExponentState
  | none
  | begun
  | signed
  deriving DecidableEq

namespace Number

/-- How many characters a number takes after its first digit. A point counts once, and an exponent's
sign only right before a digit. -/
def length (pointAllowed : Bool) (exponent : ExponentState) : List Char → Nat
  | [] => 0
  | c :: rest =>
    if Text.isAnyDigit c then length pointAllowed exponent rest + 1
    else if c == '.' then
      if pointAllowed then length false exponent rest + 1 else 0
    else if c == '+' || c == '-' then
      if exponent = .begun && (rest.head?.map Text.isAnyDigit).getD false then
        length pointAllowed .signed rest + 1
      else 0
    else if (c == 'e' || c == 'E') && exponent = .none then length pointAllowed .begun rest + 1
    else 0

/-- How many characters follow up to the end of the word. -/
def wordLength (rules : LexRules) (cs : List Char) : Nat :=
  (cs.takeWhile fun c => !(Text.isBlank c || Piece.isSingleMark rules c)).length

/-- A number of base two or sixteen, zero and letter included: a literal of the digits, or a quoted
name when the digits are no number. -/
def readRadix (rules : LexRules) (base : Nat) (rest : List Char) : Piece :=
  let n := wordLength rules rest
  let text := '0' :: rest.take n
  let kind :=
    match Text.Integer.parse? base (String.ofList text) with
    | some _ => TokenKind.literal (String.ofList (text.drop 2))
    | none => TokenKind.name (String.ofList text)
  ⟨n + 1, 0, some kind⟩

/-- Reads a decimal number; a word that goes on after it belongs to it where words may start with
digits. -/
def readDecimal (rules : LexRules) (afterParameter : Bool) (rest : List Char) : Piece :=
  let n := length (!afterParameter) .none rest
  let after := rest.drop n
  let more :=
    if rules.digitWords && (after.head?.map Text.isNameStart).getD false then
      wordLength rules after
    else 0
  ⟨n + more + 1, 0, some (.words .plain)⟩

/-- Reads a number that starts with the digit `c`. -/
def read (rules : LexRules) (afterParameter : Bool) (c : Char) (rest : List Char) : Piece :=
  let letter := (rest.head?.map Char.toUpper).getD ' '
  if c == '0' && letter == 'B' then
    if rules.binaryNumbers then readRadix rules 2 rest else ⟨1, 0, some (.words .plain)⟩
  else if c == '0' && letter == 'X' then
    if rules.hexNumbers then readRadix rules 16 rest else ⟨1, 0, some (.words .plain)⟩
  else readDecimal rules afterParameter rest

end Number

namespace Word

/-- Reads a word that starts with `c`. The word of a parameter has no role. -/
def read (rules : LexRules) (afterParameter : Bool) (c : Char) (rest : List Char) : Piece :=
  let tail := rest.takeWhile fun d => !Piece.endsWord rules d
  let role :=
    if afterParameter then .plain
    else Piece.roleOf rules (Text.upper (String.ofList (c :: tail)))
  ⟨tail.length + 1, 0, some (.words role)⟩

end Word

end TableDocs.Sql
