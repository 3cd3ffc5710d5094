import TableDocs.Yaml.Token

/-!
# TableDocs — the text of YAML scalars

A scalar may go on over several lines, whose ends are folded: one line end is a space, and of
several all but the first are kept. Each reader gives the scalar's text and how many characters it
takes.
-/

namespace TableDocs.Yaml

/-- Spaces and line ends inside a scalar. -/
structure Fold where
  /-- What they stand for. -/
  text : List Char
  size : Nat
  /-- The column behind them, where a line ended. -/
  column? : Option Nat
  /-- A document mark follows at the start of a line. -/
  atMark : Bool

namespace Fold

/-- Line ends, and the gaps between them that `isFill` admits, from the start of a line on: the line
ends, the size, the column and whether a document mark follows. -/
def breaks (isFill : Char → Bool) (column : Nat) : List Char → List Char × Nat × Nat × Bool
  | [] => ([], 0, column, false)
  | c :: rest =>
    if column == 0 && isDocumentMark (c :: rest) then ([], 0, 0, true)
    else if isBreak c then
      let (text, size, col, mark) := breaks isFill 0 rest
      (breakText c :: text, size + 1, col, mark)
    else if isFill c then
      let (text, size, col, mark) := breaks isFill (column + 1) rest
      (text, size + 1, col, mark)
    else ([], 0, column, false)

/-- The text of a first line end and the further ones. -/
def joined (first : Char) (more : List Char) : List Char :=
  if breakText first != '\n' then breakText first :: more
  else if more.isEmpty then [' ']
  else more

/-- Reads the spaces at the front of a text and the line ends that follow them. -/
def read (isFill : Char → Bool) (cs : List Char) : Fold :=
  let spaces := cs.takeWhile isFill
  match cs.drop spaces.length with
  | [] => ⟨spaces, spaces.length, none, false⟩
  | c :: rest =>
    if isBreak c then
      let (more, size, column, mark) := breaks isFill 0 rest
      ⟨joined c more, spaces.length + 1 + size, some column, mark⟩
    else ⟨spaces, spaces.length, none, false⟩

end Fold

/-! ## Plain scalars -/

/-- Does a plain scalar end before this text? In a flow collection its marks end it too. -/
def plainEnds (flow : Bool) : List Char → Bool
  | [] => true
  | c :: rest =>
    isGap c || (flow && [',', '?', '[', ']', '\x7b', '\x7d'].contains c) ||
      (c == ':' &&
        match rest with
        | [] => true
        | d :: _ => isGap d || (flow && [',', '[', ']', '\x7b', '\x7d'].contains d))

/-- The length of a stretch of a plain scalar without gaps. -/
def plainLength (flow : Bool) : List Char → Nat
  | [] => 0
  | c :: rest => if plainEnds flow (c :: rest) then 0 else plainLength flow rest + 1

/-- A plain scalar: its text, how many characters it takes with the gap behind it, and whether that
gap ends a line. -/
structure PlainText where
  text : List Char
  size : Nat
  brokeLine : Bool

/-- Reads a plain scalar whose further lines have to stand at `indent` at least. -/
def readPlain (flow : Bool) (indent : Int) (cs : List Char) : PlainText :=
  let n := plainLength flow cs
  if _hn : n = 0 ∨ cs = [] then ⟨[], 0, false⟩
  else
    let fold := Fold.read (· == ' ') (cs.drop n)
    let after := cs.drop (n + fold.size)
    let brokeLine := fold.column?.isSome
    let leaves :=
      match fold.column? with
      | some column => !flow && (column : Int) < indent
      | none => false
    if fold.atMark || fold.text.isEmpty || after.head? == some '#' || leaves then
      ⟨cs.take n, n + fold.size, brokeLine⟩
    else
      let more := readPlain flow indent after
      if more.size == 0 then ⟨cs.take n, n + fold.size, brokeLine⟩
      else ⟨cs.take n ++ fold.text ++ more.text, n + fold.size + more.size, more.brokeLine⟩
termination_by cs.length
decreasing_by
  have : cs.length ≠ 0 := fun h => _hn (Or.inr (List.eq_nil_of_length_eq_zero h))
  simp only [List.length_drop]
  omega

/-! ## Quoted scalars -/

/-- The character of a letter after a backslash. -/
def escapeChar? : Char → Option Char
  | '0' => some '\x00'
  | 'a' => some '\x07'
  | 'b' => some '\x08'
  | 't' => some '\t'
  | '\t' => some '\t'
  | 'n' => some '\n'
  | 'v' => some '\x0B'
  | 'f' => some '\x0C'
  | 'r' => some '\r'
  | 'e' => some '\x1B'
  | ' ' => some ' '
  | '"' => some '"'
  | '\\' => some '\\'
  | '/' => some '/'
  | 'N' => some '\u0085'
  | '_' => some '\u00A0'
  | 'L' => some '\u2028'
  | 'P' => some '\u2029'
  | _ => none

/-- How many hexadecimal digits follow a letter after a backslash. -/
def escapeDigits? : Char → Option Nat
  | 'x' => some 2
  | 'u' => some 4
  | 'U' => some 8
  | _ => none

/-- The value of a hexadecimal digit in either case. -/
def hexValue? (c : Char) : Option Nat :=
  if c.isDigit then some (c.toNat - '0'.toNat)
  else if 'a' ≤ c && c ≤ 'f' then some (c.toNat - 'a'.toNat + 10)
  else if 'A' ≤ c && c ≤ 'F' then some (c.toNat - 'A'.toNat + 10)
  else none

/-- The number that all of the digits write. -/
def ofHex? (digits : List Char) : Option Nat :=
  digits.foldlM (fun n d => (hexValue? d).map (n * 16 + ·)) 0

/-- A stretch of a quoted scalar: what it stands for and its size. -/
abbrev Stretch := List Char × Nat

/-- Reads the escape behind a backslash, which `c` starts. -/
def readEscape (c : Char) (rest : List Char) : Except Fault Stretch :=
  match escapeChar? c, escapeDigits? c with
  | some e, _ => .ok ([e], 1)
  | none, some n =>
    match if rest.length < n then none else ofHex? (rest.take n) with
    | some code => .ok ([Char.ofNat code], n + 1)
    | none => .error .badEscape
  | none, none =>
    if isBreak c then
      let (text, size, _, mark) := Fold.breaks (fun d => d == ' ' || d == '\t') 0 rest
      if mark then .error .openQuote else .ok (text, size + 1)
    else .error .badEscape

/-- Reads the next stretch of a quoted scalar that starts with `c`. -/
def readStretch (double : Bool) (c : Char) (rest : List Char) : Except Fault Stretch :=
  if isGap c then
    let fold := Fold.read (fun d => d == ' ' || d == '\t') (c :: rest)
    if fold.atMark || (c :: rest).length ≤ fold.size then .error .openQuote
    else .ok (fold.text, fold.size)
  else if !double && c == '\'' then .ok (['\''], 2)
  else if double && c == '\\' then
    match rest with
    | [] => .error .badEscape
    | d :: more => (readEscape d more).map fun (text, size) => (text, size + 1)
  else .ok ([c], 1)

/-- Does the scalar end before this text? In single quotes a doubled quote does not end it. -/
def quoteCloses (double : Bool) (c : Char) (rest : List Char) : Bool :=
  if double then c == '"' else c == '\'' && rest.head? != some '\''

/-- Reads a quoted scalar behind its opening quote; the size counts the closing quote. -/
def readQuoted (double : Bool) (cs : List Char) : Except Fault Stretch :=
  match cs with
  | [] => .error .openQuote
  | c :: rest =>
    if quoteCloses double c rest then .ok ([], 1)
    else match readStretch double c rest with
      | .error f => .error f
      | .ok (text, size) =>
        match readQuoted double (rest.drop (size - 1)) with
        | .error f => .error f
        | .ok (more, moreSize) => .ok (text ++ more, size + moreSize)
termination_by cs.length
decreasing_by simp only [List.length_drop, List.length_cons]; omega

end TableDocs.Yaml
