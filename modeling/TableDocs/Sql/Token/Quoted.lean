import TableDocs.Sql.Token.Escape

/-!
# TableDocs — quoted names and literals

Each reader starts behind the opening quote and gives the text that the quoted stretch stands for,
with the number of characters up to and including the closing quote.
-/

namespace TableDocs.Sql.Quoted

/-- What a reader gives: the text so far, and how many characters it took. -/
abbrev Reading := Except TokenFault (List Char × Nat)

/-- Puts decoded characters, written with `n` characters, before what follows. -/
def prepend (chars : List Char) (n : Nat) (after : Reading) : Reading :=
  after.map fun (text, taken) => (chars ++ text, taken + n)

/-- Only the closing quote is special: doubled it stands for one, unless the script ends there. -/
def readPlain (closer : Char) : List Char → Reading
  | [] => .error .unclosedQuote
  | [c] => if c = closer then .ok ([], 1) else .error .unclosedQuote
  | c :: d :: rest =>
    if c = closer then
      if d ≠ closer then .ok ([], 1)
      else if rest.isEmpty then .error .endsInEscape
      else prepend [closer] 2 (readPlain closer rest)
    else prepend [c] 1 (readPlain closer (d :: rest))

/-- Characters that a backslash makes out of a letter. -/
def backslashChar? : Char → Option Char
  | '0' => some '\x00'
  | 'b' => some '\x08'
  | 'n' => some '\n'
  | 'r' => some '\r'
  | 't' => some '\t'
  | 'Z' => some '\x1A'
  | '\\' => some '\\'
  | _ => none

/-- A backslash gives a control character, stays before a pattern mark and vanishes before anything
else; either quote, doubled, is passed over as one step, and the closing quote then stands for
one. -/
def readBackslash (closer : Char) : List Char → Reading
  | [] => .error .unclosedQuote
  | [c] => if c = closer then .ok ([], 1) else .error .unclosedQuote
  | c :: d :: rest =>
    if c = '\\' then
      match backslashChar? d with
      | some e =>
        if rest.isEmpty then .error .cutShort
        else prepend [e] 2 (readBackslash closer rest)
      | none =>
        if d = '%' || d = '_' then prepend [c, d] 2 (readBackslash closer rest)
        else if rest.isEmpty then .error .endsInEscape
        else prepend [d] 2 (readBackslash closer rest)
    else if (c = '\'' || c = '"') && d = c then
      if rest.isEmpty then .error .endsInEscape
      else prepend (if c = closer then [c] else [c, c]) 2 (readBackslash closer rest)
    else if c = closer then .ok ([], 1)
    else prepend [c] 1 (readBackslash closer (d :: rest))

/-- Reads the values of a literal whose backslashes start sequences; the quote doubled stands for
one. -/
def readValues (closer : Char) : List Char → Except TokenFault (List Escape.Value × Nat)
  | [] => .error .unclosedQuote
  | [c] => if c = closer then .ok ([], 1) else .error .unclosedQuote
  | c :: d :: rest =>
    if c = '\\' then
      if (d = '\\' || d = closer) && rest.isEmpty then .error .endsInEscape
      else
        let (value, n) := Escape.read d rest
        (readValues closer (rest.drop (n - 1))).map fun (values, taken) =>
          (value :: values, taken + n + 1)
    else if c = closer then
      if d ≠ closer then .ok ([], 1)
      else if rest.isEmpty then .error .endsInEscape
      else (readValues closer rest).map fun (values, taken) => (.char closer :: values, taken + 2)
    else (readValues closer (d :: rest)).map fun (values, taken) => (.char c :: values, taken + 1)
termination_by cs => cs.length
decreasing_by all_goals simp; try omega

/-- Reads a quoted stretch, whose opening quote has to have text behind it. -/
def behindOpening (read : List Char → Reading) (cs : List Char) : Reading :=
  if cs.isEmpty then .error .cutShort else read cs

/-- Reads a literal with its form's rules. -/
def readBy (quoting : Quoting) (closer : Char) (cs : List Char) : Reading :=
  match quoting with
  | .plain => readPlain closer cs
  | .backslash => readBackslash closer cs
  | .escaped => (readValues closer cs).map fun (values, taken) => (Escape.text values, taken)

/-- Reads up to a closing mark of several characters. Two single quotes are passed over as one
step. -/
def readTo (mark : List Char) : List Char → Reading
  | [] => .error .unclosedQuote
  | '\'' :: '\'' :: rest =>
    if rest.isEmpty then .error .endsInEscape
    else prepend ['\'', '\''] 2 (readTo mark rest)
  | c :: rest =>
    if mark.isPrefixOf (c :: rest) then .ok ([], mark.length)
    else prepend [c] 1 (readTo mark rest)

end TableDocs.Sql.Quoted
