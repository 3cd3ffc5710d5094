import TableDocs.Text.Blank
import TableDocs.Text.Digit

/-!
# TableDocs — integers written in text

An integer is written with an optional sign and digits, between which single underscores may stand.
Two readers share that rule: a lenient one that takes the decimal digits of every script, any base
and the prefix of the base, and a plain one that takes ASCII digits only and a fraction of zeros.
-/

namespace TableDocs.Text.Integer

/-- The value of a digit in some base: a decimal digit of any script or an ASCII letter. -/
def digitValue? (c : Char) : Option Nat :=
  match decimalValue? c with
  | some v => some v
  | none =>
    if 'a' ≤ c ∧ c ≤ 'z' then some (c.toNat - 'a'.toNat + 10)
    else if 'A' ≤ c ∧ c ≤ 'Z' then some (c.toNat - 'A'.toNat + 10)
    else none

/-- Reads the digits that follow a digit: each one may have one underscore before it. -/
def moreDigits (value? : Char → Option Nat) (base total : Nat) : List Char → Option Nat
  | [] => some total
  | '_' :: c :: rest =>
    match value? c with
    | some v => if v < base then moreDigits value? base (total * base + v) rest else none
    | none => none
  | c :: rest =>
    match value? c with
    | some v => if v < base then moreDigits value? base (total * base + v) rest else none
    | none => none

/-- Reads a number that starts with a digit. -/
def digits? (value? : Char → Option Nat) (base : Nat) : List Char → Option Nat
  | [] => none
  | c :: rest =>
    match value? c with
    | some v => if v < base then moreDigits value? base v rest else none
    | none => none

/-- Takes off the prefix that names the base, with one underscore that may follow it. -/
def dropBasePrefix (base : Nat) (cs : List Char) : List Char :=
  let named : List Char := if base = 16 then ['x', 'X'] else if base = 2 then ['b', 'B'] else []
  match cs with
  | '0' :: mark :: rest =>
    if named.contains mark then
      match rest with
      | '_' :: tail => tail
      | _ => rest
    else cs
  | _ => cs

/-- Takes the sign off: whether the number is negative, and the rest. -/
def splitSign : List Char → Bool × List Char
  | '+' :: rest => (false, rest)
  | '-' :: rest => (true, rest)
  | cs => (false, cs)

def withSign (negative : Bool) (n : Nat) : Int :=
  if negative then -(n : Int) else n

/-- Reads an integer in a base; spacing around it is dropped. -/
def parse? (base : Nat) (s : String) : Option Int :=
  let (negative, cs) := splitSign (trimWhere isSpacing s.toList)
  (digits? digitValue? base (dropBasePrefix base cs)).map (withSign negative)

/-- The most digits of a decimal integer. -/
def mostDigits : Nat := 4300

/-- Reads a decimal integer of bounded size. -/
def parseDecimal? (s : String) : Option Int :=
  if (s.toList.filter fun c => (decimalValue? c).isSome).length > mostDigits then none
  else parse? 10 s

/-- The value of an ASCII digit. -/
def plainDigitValue? (c : Char) : Option Nat :=
  if c.isDigit then some (c.toNat - '0'.toNat) else none

/-- Cuts a point and the zeros after it; a point needs one zero at least and nothing else. -/
def dropZeroFraction (cs : List Char) : List Char :=
  match (cs.dropWhile (· != '.')) with
  | '.' :: '0' :: zeros => if zeros.all (· == '0') then cs.takeWhile (· != '.') else cs
  | _ => cs

/-- Reads a decimal integer in ASCII digits; spacing around it and a fraction of zeros are
dropped. -/
def parsePlain? (s : String) : Option Int :=
  let (negative, cs) := splitSign (trimWhere isSpacing s.toList)
  (digits? plainDigitValue? 10 (dropZeroFraction cs)).map (withSign negative)

end TableDocs.Text.Integer
