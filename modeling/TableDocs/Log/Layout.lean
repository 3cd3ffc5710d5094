import TableDocs.Log.Record
import TableDocs.Text.CaseMap
import TableDocs.Text.Digit
import TableDocs.Text.Quoted
import TableDocs.Text.WordChar

/-!
# TableDocs — layouts of log lines

A layout is a text with fields: a percent sign, the field's name in parentheses, optional flags,
width and precision, and a letter for the kind of value. A layout without any field is refused. A
record that a layout cannot be filled with is not written.
-/

namespace TableDocs.Log

/-- A field of a layout. -/
structure Field where
  name : String
  flags : List Char
  width : Nat
  precision? : Option Nat
  kind : Char
  deriving DecidableEq, Repr

inductive Piece
  | plain (c : Char)
  | field (f : Field)
  deriving DecidableEq, Repr

namespace Layout

/-- Does text that starts behind a percent sign have the shape of a field? Width and precision may
be stars here. -/
def isField (cs : List Char) : Bool :=
  match cs with
  | '(' :: rest =>
    let name := rest.takeWhile Text.isWordChar
    match rest.drop name.length with
    | ')' :: more =>
      let afterFlags := more.dropWhile fun c => ['#', '0', '+', ' ', '-'].contains c
      -- A zero may be a flag or start the width, so digits may follow the flags in any number.
      let skipNumber (cs : List Char) : List Char :=
        match cs with
        | '*' :: tail => tail
        | _ => cs.dropWhile fun c => (Text.decimalValue? c).isSome
      let afterWidth := skipNumber afterFlags
      let afterPrecision :=
        match afterWidth with
        | '.' :: '*' :: tail => tail
        | '.' :: d :: tail =>
          if (Text.decimalValue? d).isSome then skipNumber (d :: tail) else afterWidth
        | _ => afterWidth
      match afterPrecision with
      | c :: _ => !name.isEmpty && "diouxefgcrsaDIOUXEFGCRSA%ſ".toList.contains c
      | [] => false
    | _ => false
  | _ => false

/-- Does a layout have a field anywhere? -/
def hasField : List Char → Bool
  | [] => false
  | c :: rest => (c == '%' && isField rest) || hasField rest

/-- Reads digits: the number and the rest. -/
def readNumber (cs : List Char) : Nat × List Char :=
  ((cs.takeWhile Char.isDigit).foldl (fun n c => n * 10 + (c.toNat - '0'.toNat)) 0,
    cs.dropWhile Char.isDigit)

/-- The length of a name in parentheses, which may hold further pairs of parentheses. -/
def nameLength? (depth : Nat) : List Char → Option Nat
  | [] => none
  | ')' :: rest =>
    match depth with
    | 0 => some 0
    | d + 1 => (nameLength? d rest).map (· + 1)
  | '(' :: rest => (nameLength? (depth + 1) rest).map (· + 1)
  | _ :: rest => (nameLength? depth rest).map (· + 1)

/-- Reads a field behind its percent sign: the field and the rest. -/
def readField? (cs : List Char) : Option (Field × List Char) :=
  match cs with
  | '(' :: rest =>
    (nameLength? 0 rest).bind fun n =>
      let name := String.ofList (rest.take n)
      let rest := rest.drop (n + 1)
      let flags := rest.takeWhile fun c => ['#', '0', '+', ' ', '-'].contains c
      let (width, rest) := readNumber (rest.drop flags.length)
      let (precision?, rest) :=
        match rest with
        | '.' :: more =>
          let (p, tail) := readNumber more
          (some p, tail)
        | _ => (none, rest)
      let rest := match rest with
        | c :: more => if c == 'h' || c == 'l' || c == 'L' then more else c :: more
        | [] => []
      match rest with
      | kind :: tail => some (⟨name, flags, width, precision?, kind⟩, tail)
      | [] => none
  | _ => none

/-- Cuts a layout into plain characters and fields; a doubled percent sign is a plain one. None when
a percent sign starts no field. -/
def pieces? (cs : List Char) : Option (List Piece) :=
  match cs with
  | [] => some []
  | '%' :: '%' :: rest => (pieces? rest).map (.plain '%' :: ·)
  | '%' :: rest =>
    match readField? rest with
    | none => none
    | some (f, tail) =>
      if tail.length ≤ rest.length then (pieces? tail).map (.field f :: ·) else none
  | c :: rest => (pieces? rest).map (.plain c :: ·)
termination_by cs.length

/-- The values of a record by field name. -/
inductive FieldValue
  | text (s : String)
  | number (n : Nat)

def value? (time : String) (r : Record) : String → Option FieldValue
  | "asctime" => some (.text time)
  | "levelname" => some (.text r.level.name)
  | "levelno" => some (.number r.level.number)
  | "name" => some (.text r.logger.name)
  | "message" => some (.text r.message)
  | "msg" => some (.text r.message)
  | "filename" => some (.text r.logger.file)
  | "module" => some (.text ((r.logger.file.splitOn ".").headD ""))
  | "processName" => some (.text "MainProcess")
  | "threadName" => some (.text "MainThread")
  | _ => none

/-- Fills a text up to the field's width. -/
def pad (f : Field) (fill : Char) (text : List Char) : List Char :=
  let blank := List.replicate (f.width - text.length)
  if f.flags.contains '-' then text ++ blank ' ' else blank fill ++ text

/-- The text of a field. -/
def fieldText? (time : String) (r : Record) (f : Field) : Option (List Char) :=
  match value? time r f.name with
  | none => none
  | some v =>
    let plain : String :=
      match v with
      | .text s => s
      | .number n => toString n
    let cut (s : String) : List Char :=
      match f.precision? with
      | some p => s.toList.take p
      | none => s.toList
    match f.kind, v with
    | 's', _ => some (pad f ' ' (cut plain))
    | 'r', .text s => some (pad f ' ' (cut (Text.quoted s)))
    | 'a', .text s => some (pad f ' ' (cut (Text.quoted s)))
    | 'r', .number n => some (pad f ' ' (cut (toString n)))
    | 'a', .number n => some (pad f ' ' (cut (toString n)))
    | 'd', .number n => number n
    | 'i', .number n => number n
    | 'u', .number n => number n
    | _, _ => none
where
  /-- An integer with its sign flag, and zeros up to its precision or width. -/
  number (n : Nat) : Option (List Char) :=
    let digits := (toString n).toList
    let digits := List.replicate ((f.precision?.getD 0) - digits.length) '0' ++ digits
    let sign := if f.flags.contains '+' then ['+'] else if f.flags.contains ' ' then [' '] else []
    if f.flags.contains '0' && !f.flags.contains '-' then
      some (sign ++ List.replicate (f.width - digits.length - sign.length) '0' ++ digits)
    else some (pad f ' ' (sign ++ digits))

/-- The layout that a setting asks for: nothing asks for the message alone. -/
def effective (layout : String) : String :=
  if layout.isEmpty then "%(message)s" else layout

/-- The message that refuses a layout without a field. -/
def refusal? (layout : String) : Option String :=
  if hasField (effective layout).toList then none
  else some ("Invalid format " ++ "'" ++ effective layout ++ "' for '%' style")

/-- The line of a record; none when the layout cannot be filled. -/
def line? (layout time : String) (r : Record) : Option String := do
  let pieces ← pieces? (effective layout).toList
  let texts ← pieces.mapM fun
    | .plain c => some [c]
    | .field f => fieldText? time r f
  return String.ofList texts.flatten

end Layout

end TableDocs.Log
