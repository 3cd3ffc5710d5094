import TableDocs.Data.Value
import TableDocs.Yaml.Token

/-!
# TableDocs — what plain YAML scalars denote

A scalar without quotes may denote nothing, a truth value, a number or a date; else it is text.
-/

namespace TableDocs.Yaml

open TableDocs.Data

namespace PlainValue

/-- The value of a digit in a base up to sixteen. -/
def digitValue? (base : Nat) (c : Char) : Option Nat :=
  let v? :=
    if c.isDigit then some (c.toNat - '0'.toNat)
    else if 'a' ≤ c && c ≤ 'f' then some (c.toNat - 'a'.toNat + 10)
    else if 'A' ≤ c && c ≤ 'F' then some (c.toNat - 'A'.toNat + 10)
    else none
  v?.filter (· < base)

/-- The number that digits write; underscores between them mean nothing. -/
def number? (base : Nat) (cs : List Char) : Option Nat :=
  (cs.filter (· != '_')).foldlM (fun n c => (digitValue? base c).map (n * base + ·)) 0

def isDigitOrLine (c : Char) : Bool :=
  c.isDigit || c == '_'

/-- The stretches of a text between colons. -/
def parts : List Char → List (List Char)
  | [] => [[]]
  | c :: rest =>
    match parts rest with
    | [] => [[c]]
    | first :: others => if c == ':' then [] :: first :: others else (c :: first) :: others

/-- One or two digits below sixty. -/
def isSixtieth (cs : List Char) : Bool :=
  match cs with
  | [d] => d.isDigit
  | [t, d] => '0' ≤ t && t ≤ '5' && d.isDigit
  | _ => false

/-- A number in base sixty, its places between colons. -/
def sixties (places : List (List Char)) : Nat :=
  places.foldl (fun n p => n * 60 + (number? 10 p).getD 0) 0

/-- The sign of a number and the rest. -/
def splitSign : List Char → Bool × List Char
  | '-' :: rest => (true, rest)
  | '+' :: rest => (false, rest)
  | cs => (false, cs)

/-- Reads an integer without its sign: in base two, eight, ten, sixteen or sixty. -/
def natural? (cs : List Char) : Option Nat :=
  match cs with
  | '0' :: 'b' :: digits =>
    if digits.any (· != '_') then number? 2 digits else none
  | '0' :: 'x' :: digits =>
    if digits.any (· != '_') then number? 16 digits else none
  | '0' :: digits =>
    if digits.all fun c => ('0' ≤ c && c ≤ '7') || c == '_' then number? 8 digits else none
  | c :: _ =>
    if !c.isDigit then none
    else match parts cs with
      | [digits] => if digits.all isDigitOrLine then number? 10 digits else none
      | first :: others =>
        if first.all isDigitOrLine && others.all isSixtieth then some (sixties (first :: others))
        else none
      | [] => none
  | [] => none

/-- Reads the exponent of a number: a letter, a sign and digits, or nothing at all. -/
def exponent? : List Char → Option Int
  | [] => some 0
  | e :: sign :: digits =>
    if (e == 'e' || e == 'E') && (sign == '+' || sign == '-') && !digits.isEmpty &&
        digits.all Char.isDigit then
      (number? 10 digits).map fun n => if sign == '-' then -(n : Int) else n
    else none
  | _ => none

/-- Reads a number with a point and without its sign. -/
def fraction? (negative signed : Bool) (cs : List Char) : Option Binary64 :=
  let whole := cs.takeWhile (· != '.')
  match cs.dropWhile (· != '.') with
  | '.' :: rest =>
    let digits := rest.takeWhile isDigitOrLine
    let tail := rest.dropWhile isDigitOrLine
    let places := (digits.filter (· != '_')).length
    let decimal (whole : Nat) (exponent : Int) : Binary64 :=
      .ofDecimal negative (whole * Nat.pow 10 places + (number? 10 digits).getD 0)
        (exponent - places)
    match whole with
    | [] =>
      if ["inf", "Inf", "INF"].contains (String.ofList rest) then some (.infinite negative)
      else if signed then none
      else if ["nan", "NaN", "NAN"].contains (String.ofList rest) then some .nan
      else if (rest.head?.map Char.isDigit).getD false then (exponent? tail).map (decimal 0)
      else none
    | c :: _ =>
      if !c.isDigit then none
      else match parts whole with
        | [ds] =>
          if ds.all isDigitOrLine then (exponent? tail).map (decimal ((number? 10 ds).getD 0))
          else none
        | first :: others =>
          if first.all isDigitOrLine && others.all isSixtieth && tail.isEmpty then
            some (decimal (sixties (first :: others)) 0)
          else none
        | [] => none
  | _ => none

/-- Do the characters have the shape of a pattern, in which a zero stands for any digit? -/
def hasShape (pattern : String) (cs : List Char) : Bool :=
  cs.length == pattern.length &&
    (cs.zip pattern.toList).all fun (c, p) => if p == '0' then c.isDigit else c == p

/-- Takes one or two digits off the front. -/
def dropDigits? (cs : List Char) : Option (List Char) :=
  match cs with
  | a :: b :: rest =>
    if !a.isDigit then none else if b.isDigit then some rest else some (b :: rest)
  | [a] => if a.isDigit then some [] else none
  | [] => none

def dropChar? (p : Char → Bool) : List Char → Option (List Char)
  | [] => none
  | c :: rest => if p c then some rest else none

/-- A time zone: nothing, the letter of the zero zone, or hours and minutes. -/
def isZone (cs : List Char) : Bool :=
  match cs.dropWhile fun c => c == ' ' || c == '\t' with
  | [] => cs.isEmpty
  | ['Z'] => true
  | sign :: rest =>
    (sign == '+' || sign == '-') &&
      match dropDigits? rest with
      | some [] => true
      | some more => hasShape ":00" more
      | none => false

/-- Is the text a date, or a date with a time? -/
def isDate (cs : List Char) : Bool :=
  hasShape "0000-00-00" cs ||
    hasShape "0000-" (cs.take 5) &&
      (do
        let day ← dropDigits? (cs.drop 5)
        let day ← dropChar? (· == '-') day
        let mark ← dropDigits? day
        let hour ←
          match mark with
          | 'T' :: rest => some rest
          | 't' :: rest => some rest
          | _ =>
            (dropChar? (fun c => c == ' ' || c == '\t') mark).map fun rest =>
              rest.dropWhile fun c => c == ' ' || c == '\t'
        let minute ← dropDigits? hour
        if !hasShape ":00:00" (minute.take 6) then none
        let rest := minute.drop 6
        let zone :=
          match rest with
          | '.' :: digits => digits.dropWhile Char.isDigit
          | _ => rest
        return isZone zone) == some true

/-- The value of a plain scalar; the lone equals sign has none. -/
def read? (s : String) : Option Value :=
  let cs := s.toList
  let (negative, unsigned) := splitSign cs
  if s == "=" then none
  else if ["yes", "Yes", "YES", "true", "True", "TRUE", "on", "On", "ON"].contains s then
    some (.bool true)
  else if ["no", "No", "NO", "false", "False", "FALSE", "off", "Off", "OFF"].contains s then
    some (.bool false)
  else if ["", "~", "null", "Null", "NULL"].contains s then some .null
  else match natural? unsigned with
    | some n => some (.int (if negative then -(n : Int) else n))
    | none =>
      match fraction? negative (unsigned.length < cs.length) unsigned with
      | some x => some (.real x)
      | none => if isDate cs then some .other else some (.text s)

end PlainValue

end TableDocs.Yaml
