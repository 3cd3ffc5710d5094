import TableDocs.Data.Value

/-!
# TableDocs — writing JSON

Values are written with one member or item per line, indented by their depth, and empty lists and
objects on one line. Text keeps every character that JSON admits inside quotes.
-/

namespace TableDocs.Json

open TableDocs.Data

def hexDigit (n : Nat) : Char :=
  if n < 10 then Char.ofNat ('0'.toNat + n) else Char.ofNat ('a'.toNat + (n - 10))

/-- A character inside quotes: quotes, backslashes and control characters are escaped. -/
def escape (c : Char) : List Char :=
  match c with
  | '"' => ['\\', '"']
  | '\\' => ['\\', '\\']
  | '\n' => ['\\', 'n']
  | '\r' => ['\\', 'r']
  | '\t' => ['\\', 't']
  | '\x08' => ['\\', 'b']
  | '\x0C' => ['\\', 'f']
  | _ =>
    if c.toNat < 0x20 then ['\\', 'u', '0', '0', hexDigit (c.toNat / 16), hexDigit (c.toNat % 16)]
    else [c]

def quote (s : String) : List Char :=
  '"' :: s.toList.flatMap escape ++ ['"']

/-- A line end and the indentation of a depth. A negative width indents by nothing. -/
def lineBreak (width : Int) (depth : Nat) : List Char :=
  '\n' :: List.replicate (width.toNat * depth) ' '

def printInt (n : Int) : List Char :=
  (toString n).toList

/-- Writes a number as all its digits and a power of ten, so that it reads back as the same number.
What is no finite number has no written form and stands as null. -/
def printReal : Binary64 → List Char
  | .finite negative significand exponent =>
    (if negative then ['-'] else []) ++
      printInt (significand * Binary64.powerUp 2 exponent * Binary64.powerUp 5 (-exponent) : Nat) ++
      'e' :: printInt (min exponent 0)
  | _ => ['n', 'u', 'l', 'l']

mutual

/-- Writes a value that stands at a depth. -/
def print (width : Int) (depth : Nat) : Value → List Char
  | .null => ['n', 'u', 'l', 'l']
  | .bool true => ['t', 'r', 'u', 'e']
  | .bool false => ['f', 'a', 'l', 's', 'e']
  | .int n => printInt n
  | .real x => printReal x
  | .text s => quote s
  | .list [] => ['[', ']']
  | .list (v :: vs) =>
    '[' :: lineBreak width (depth + 1) ++ print width (depth + 1) v ++
      printItems width (depth + 1) vs ++ lineBreak width depth ++ [']']
  | .object [] => ['\x7b', '\x7d']
  | .object ((key, v) :: ms) =>
    '\x7b' :: lineBreak width (depth + 1) ++ quote key ++ [':', ' '] ++ print width (depth + 1) v ++
      printMembers width (depth + 1) ms ++ lineBreak width depth ++ ['\x7d']
  | .other => ['n', 'u', 'l', 'l']

/-- Writes the items behind the first one. -/
def printItems (width : Int) (depth : Nat) : List Value → List Char
  | [] => []
  | v :: vs => ',' :: lineBreak width depth ++ print width depth v ++ printItems width depth vs

/-- Writes the members behind the first one. -/
def printMembers (width : Int) (depth : Nat) : List (String × Value) → List Char
  | [] => []
  | (key, v) :: ms =>
    ',' :: lineBreak width depth ++ quote key ++ [':', ' '] ++ print width depth v ++
      printMembers width depth ms

end

end TableDocs.Json
