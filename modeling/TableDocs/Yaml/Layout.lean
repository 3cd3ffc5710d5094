import TableDocs.Yaml.ScalarText

/-!
# TableDocs — the layout of YAML texts

`tokensOf` cuts a text into tokens. Whether a scalar or a collection is the key of a mapping shows
only at the colon behind it, so the place of each possible key is kept until then: one on each level
of flow collections, on the same line and within 1024 characters.
-/

namespace TableDocs.Yaml

/-- Where a key may have started. -/
structure PossibleKey where
  /-- How many tokens stand before it. -/
  tokens : Nat
  /-- In a block no other token could stand there. -/
  mandatory : Bool
  offset : Nat
  line : Nat
  column : Int
  /-- The level of flow collections. -/
  flow : Nat

structure Layout where
  offset : Nat
  line : Nat
  column : Nat
  tokens : Array Token
  /-- How many flow collections are open. -/
  flow : Nat
  /-- The column of the innermost open block, and of those around it; none before the first. -/
  indent : Int
  outer : List Int
  keyAllowed : Bool
  keys : List PossibleKey

namespace Layout

def initial : Layout := ⟨0, 0, 0, #[], 0, -1, [], true, []⟩

/-- Moves behind the first `n` characters of a text. -/
def advance (s : Layout) : Nat → List Char → Layout
  | 0, _ => s
  | _, [] => s
  | n + 1, c :: rest =>
    let ends := isBreak c && !(c == '\r' && rest.head? == some '\n')
    let s := { s with
      offset := s.offset + 1
      line := if ends then s.line + 1 else s.line
      column := if ends then 0 else if c.toNat == 0xFEFF then s.column else s.column + 1 }
    s.advance n rest

def push (s : Layout) (t : Token) : Layout :=
  { s with tokens := s.tokens.push t }

/-- Forgets possible keys that a line end or too many characters part from here. -/
def dropStale (s : Layout) : Except Fault Layout :=
  let stale (k : PossibleKey) : Bool := k.line != s.line || s.offset - k.offset > 1024
  if s.keys.any fun k => stale k && k.mandatory then .error .missingColon
  else .ok { s with keys := s.keys.filter fun k => !stale k }

/-- Forgets the possible key of this level. -/
def dropKey (s : Layout) : Except Fault Layout :=
  if s.keys.any fun k => k.flow == s.flow && k.mandatory then .error .missingColon
  else .ok { s with keys := s.keys.filter fun k => k.flow != s.flow }

/-- Remembers that a key may start here. -/
def noteKey (s : Layout) : Except Fault Layout :=
  if s.keyAllowed then do
    let s ← s.dropKey
    let mandatory := s.flow == 0 && s.indent == s.column
    let key := ⟨s.tokens.size, mandatory, s.offset, s.line, s.column, s.flow⟩
    return { s with keys := key :: s.keys }
  else .ok s

/-- Ends the blocks that stand further right than a column. -/
def closeBlocks (s : Layout) (column : Int) : Layout :=
  if s.flow != 0 then s
  else
    let rec go (indent : Int) (tokens : Array Token) : List Int → Layout
      | [] => { s with indent, outer := [], tokens }
      | next :: outer =>
        if indent > column then go next (tokens.push .blockEnd) outer
        else { s with indent, outer := next :: outer, tokens }
    go s.indent s.tokens s.outer

/-- Opens a block at a column further right than the innermost one; its token goes to a place among
the tokens. -/
def openBlock (s : Layout) (column : Int) (place : Nat) (t : Token) : Layout :=
  if s.indent < column then
    { s with
      indent := column
      outer := s.indent :: s.outer
      tokens := (s.tokens.toList.take place ++ t :: s.tokens.toList.drop place).toArray }
  else s

/-- Reads an opening mark of a flow collection. -/
def flowStart (s : Layout) (t : Token) : Except Fault Layout := do
  let s ← s.noteKey
  return { s.push t with flow := s.flow + 1, keyAllowed := true }

/-- Reads a closing mark of a flow collection. -/
def flowEnd (s : Layout) (t : Token) : Except Fault Layout := do
  let s ← s.dropKey
  return { s.push t with flow := s.flow - 1, keyAllowed := false }

/-- Reads the comma of a flow collection. -/
def flowEntry (s : Layout) : Except Fault Layout := do
  let s ← { s with keyAllowed := true }.dropKey
  return s.push .flowEntry

/-- Reads a mark that opens a block where no flow collection is open: a dash or a question mark. -/
def blockMark (s : Layout) (misplaced : Fault) (block mark : Token) (allowed : Bool) :
    Except Fault Layout := do
  let s ←
    if s.flow != 0 then pure s
    else if !s.keyAllowed then throw misplaced
    else pure (s.openBlock s.column s.tokens.size block)
  let s ← { s with keyAllowed := allowed }.dropKey
  return s.push mark

/-- Reads the colon of a mapping: what stood at the possible key of this level becomes the key. -/
def valueMark (s : Layout) : Except Fault Layout := do
  match s.keys.find? fun k => k.flow == s.flow with
  | some k =>
    let s := { s with keys := s.keys.filter fun k => k.flow != s.flow }
    let (before, after) := s.tokens.toList.splitAt k.tokens
    let keyed := { s with tokens := (before ++ Token.key :: after).toArray }
    let opened := if s.flow == 0 then keyed.openBlock k.column k.tokens .blockMapping else keyed
    return { opened.push .value with keyAllowed := false }
  | none => s.blockMark .misplacedValue .blockMapping .value (s.flow == 0)

/-- Reads three dashes or three dots. -/
def documentMark (s : Layout) (t : Token) : Except Fault Layout := do
  let s ← (s.closeBlocks (-1)).dropKey
  return { s.push t with keyAllowed := false }

/-- Reads a scalar that takes a text. -/
def scalar (s : Layout) (plain : Bool) (text : List Char) (brokeLine : Bool) :
    Except Fault Layout := do
  let s ← s.noteKey
  return { s.push (.scalar plain (String.ofList text)) with keyAllowed := brokeLine }

/-- May a plain scalar start with `c`? -/
def plainStarts (flow : Bool) (c : Char) (rest : List Char) : Bool :=
  if c == '-' || (!flow && (c == '?' || c == ':')) then !gapFollows rest
  else !isGap c && !"-?:,[]\x7b\x7d#&*!|>'\"%@\x60".toList.contains c

/-- Reads the token that starts with `c`: the layout behind it and how many characters it takes. -/
def readToken (s : Layout) (c : Char) (rest : List Char) : Except Fault (Layout × Nat) := do
  let s ← s.dropStale
  let s := s.closeBlocks s.column
  let one (next : Except Fault Layout) : Except Fault (Layout × Nat) := next.map fun n => (n, 1)
  if s.column == 0 && isDocumentMark (c :: rest) then
    return (← s.documentMark (if c == '-' then .documentStart else .documentEnd), 3)
  match c with
  | '[' => one (s.flowStart .flowSequence)
  | '\x7b' => one (s.flowStart .flowMapping)
  | ']' => one (s.flowEnd .flowSequenceEnd)
  | '\x7d' => one (s.flowEnd .flowMappingEnd)
  | ',' => one s.flowEntry
  | '\'' | '"' =>
    let (text, size) ← readQuoted (c == '"') rest
    return (← s.scalar false text false, size + 1)
  | _ =>
    if c == '-' && gapFollows rest then
      one (s.blockMark .misplacedEntry .blockSequence .blockEntry true)
    else if c == '?' && (s.flow != 0 || gapFollows rest) then
      one (s.blockMark .misplacedKey .blockMapping .key (s.flow == 0))
    else if c == ':' && (s.flow != 0 || gapFollows rest) then one s.valueMark
    else if plainStarts (s.flow != 0) c rest then
      let plain := readPlain (s.flow != 0) (s.indent + 1) (c :: rest)
      return (← s.scalar true plain.text plain.brokeLine, max plain.size 1)
    else throw .strayCharacter

/-- Ends the text: all blocks end. -/
def finish (s : Layout) : List Token :=
  match s.dropStale with
  | .error f => (s.push (.fault f)).tokens.toList
  | .ok s =>
    match (s.closeBlocks (-1)).dropKey with
    | .error f => (s.push (.fault f)).tokens.toList
    | .ok s => s.tokens.toList

/-- Reads the tokens of a text behind a layout. A fault ends them. -/
def tokensFrom (s : Layout) (cs : List Char) : List Token :=
  match cs with
  | [] => s.finish
  | c :: rest =>
    if c == ' ' then tokensFrom (s.advance 1 cs) rest
    else if isBreak c then
      tokensFrom { s.advance 1 cs with keyAllowed := s.keyAllowed || s.flow == 0 } rest
    else if c == '#' then
      let n := (rest.takeWhile fun d => !isBreak d).length
      tokensFrom (s.advance (n + 1) cs) (rest.drop n)
    else match s.readToken c rest with
      | .error f => (s.push (.fault f)).tokens.toList
      | .ok (next, size) => tokensFrom (next.advance size cs) (rest.drop (size - 1))
termination_by cs.length
decreasing_by all_goals simp; try omega

end Layout

/-- Characters that a YAML text may hold. -/
def isPrintable (c : Char) : Bool :=
  let n := c.toNat
  n == 9 || n == 10 || n == 13 || (0x20 ≤ n && n ≤ 0x7E) || n == 0x85 ||
    (0xA0 ≤ n && n ≤ 0xD7FF) || (0xE000 ≤ n && n ≤ 0xFFFD) || 0x10000 ≤ n

/-- The tokens of a text. A byte order mark may open it. -/
def tokensOf (text : List Char) : List Token :=
  if !text.all isPrintable then [.fault .unprintable]
  else match text with
    | c :: rest =>
      if c.toNat == 0xFEFF then Layout.initial.tokensFrom rest else Layout.initial.tokensFrom text
    | [] => []

end TableDocs.Yaml
