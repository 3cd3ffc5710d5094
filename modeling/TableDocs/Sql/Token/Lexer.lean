import TableDocs.Sql.Token.Number
import TableDocs.Sql.Token.Phrase
import TableDocs.Sql.Token.Quoted

/-!
# TableDocs — cutting a script into tokens

`tokenize` reads a script piece by piece. A command at the start of a statement makes the rest of
the statement one opaque literal: its pieces are still read, so that a semicolon inside quotes does
not end it, but their tokens are dropped.
-/

namespace TableDocs.Sql

namespace Piece

/-- Reads a literal whose opening mark takes `n` characters. -/
def readLiteral (form : StringForm) (n : Nat) (after : List Char) : Except TokenFault Piece := do
  let closer := form.mark.toList.getLastD '\''
  let (chars, taken) ← Quoted.behindOpening (Quoted.readBy form.quoting closer) after
  let text := String.ofList chars
  let valid :=
    match form.base? with
    | none => true
    | some base => chars.isEmpty || (Text.Integer.parse? base text).isSome
  if valid then .ok ⟨n + taken, lineFeedsIn taken after, some (.literal text)⟩
  else .error (.badDigits (n + taken))

/-- Reads a text between dollar marks, after the first dollar. The mark may hold a tag; one that is
all digits, holds a blank or reaches the end of the script makes the dollar a parameter mark. -/
def readDollar (after : List Char) : Except TokenFault Piece := do
  match after with
  | [] => .error .cutShort
  | '$' :: rest =>
    let (chars, taken) ← Quoted.behindOpening (Quoted.readTo ['$', '$']) rest
    .ok ⟨taken + 2, lineFeedsIn taken rest, some (.literal (String.ofList chars))⟩
  | _ =>
    let parameter (size tagLength : Nat) : Piece :=
      ⟨size, lineFeedsIn tagLength after, some (.words .parameterMark)⟩
    match Quoted.readTo ['$'] after with
    | .error .unclosedQuote => .ok (parameter 1 after.length)
    | .error fault => .error fault
    | .ok (tag, taken) =>
      let rest := after.drop taken
      if rest.isEmpty then .ok (parameter 2 tag.length)
      else if tag.all Text.isAnyDigit || tag.any Text.isBlank then .ok (parameter 1 tag.length)
      else
        let (chars, more) ← Quoted.readTo ('$' :: tag ++ ['$']) rest
        .ok ⟨taken + 1 + more, lineFeedsIn more rest, some (.literal (String.ofList chars))⟩

/-- Reads a piece that is no blank, number or quoted name; `last?` is the kind of the token before
it. -/
def readMarkOrWord (rules : LexRules) (last? : Option TokenKind) (c : Char) (rest : List Char) :
    Except TokenFault Piece :=
  let fallback : Except TokenFault Piece :=
    if isSingleMark rules c then .ok ⟨1, 0, some (markKind c)⟩
    else .ok (Word.read rules (last? == some (.words .parameterMark)) c rest)
  if rules.dollarQuotes && c == '$' then readDollar rest
  else match Phrase.longest? rules (c :: rest) with
    | some (_, .literal form, n) => readLiteral form n ((c :: rest).drop n)
    | some (mark, .comment extent, n) => do
      let taken ← Comment.read rules mark extent ((c :: rest).drop n)
      let isHint := mark == ['/', '*', '+'] && last? == some (.words .hintable)
      .ok ⟨n + taken, lineEndsIn (n + taken) (c :: rest),
        if isHint then some (.words .plain) else none⟩
    | some (phrase, .phrase, n) =>
      if Phrase.isWhole rules (c :: rest) n then
        let kind :=
          if phrase == ['=', '='] then TokenKind.punct .equals
          else .words (roleOf rules (String.ofList phrase))
        .ok ⟨n, 0, some kind⟩
      else fallback
    | none => fallback

/-- Reads the piece that starts with `c`. -/
def read (rules : LexRules) (last? : Option TokenKind) (c : Char) (rest : List Char) :
    Except TokenFault Piece :=
  if Text.isBlank c then .ok ⟨1, lineEndsIn 1 (c :: rest), none⟩
  else if Text.isAnyDigit c then
    .ok (Number.read rules (last? == some (.words .parameterMark)) c rest)
  else match rules.nameQuotes.lookup c with
    | some closer => do
      let (chars, taken) ← Quoted.behindOpening (Quoted.readPlain closer) rest
      .ok ⟨taken + 1, lineFeedsIn taken rest, some (.name (String.ofList chars))⟩
    | none => readMarkOrWord rules last? c rest

end Piece

/-- The statement of a command, under way behind the command. -/
structure CommandText where
  /-- Its characters so far, last one first. -/
  text : List Char
  /-- The tokens before it, last one first. -/
  before : List Token
  /-- Where its last piece starts; behind a run of spaces counts as its start. -/
  lastStart : Nat

/-- What is known after the pieces read so far. -/
structure LexState where
  offset : Nat
  line : Nat
  /-- Last one first. -/
  tokens : List Token
  command? : Option CommandText

namespace LexState

def initial : LexState := ⟨0, 1, [], none⟩

/-- Ends the statement of a command: what stands in it, blanks around it dropped, is one literal. -/
def closeCommand (s : LexState) : LexState :=
  match s.command? with
  | none => s
  | some o =>
    let text := Text.trim (String.ofList o.text.reverse)
    let tokens :=
      if text.isEmpty then o.before
      else ⟨.literal text, o.lastStart, s.offset, s.line⟩ :: o.before
    { s with tokens, command? := none }

/-- Does a command here make its statement command? It has to be first in the script, in its
statement or in a block. -/
def startsStatement (tokens : List Token) : Bool :=
  match tokens with
  | [] => true
  | t :: _ => t.kind == .punct .semicolon || t.kind == .words .blockOpener

/-- Adds a piece that stands at the front of `cs`. -/
def push (s : LexState) (piece : Piece) (cs : List Char) : LexState :=
  let stop := s.offset + piece.size
  let line := s.line + piece.lineEnds
  let atEnd := (cs.drop piece.size).head? == some ';'
  let tokens :=
    match piece.kind? with
    | some kind => ⟨kind, s.offset, stop, line⟩ :: s.tokens
    | none => s.tokens
  match s.command? with
  | some o =>
    let spaces := cs.head? == some ' ' || cs.head? == some '\t'
    let o := { o with
      text := (cs.take piece.size).reverse ++ o.text
      lastStart := if spaces then stop else s.offset }
    let next : LexState := ⟨stop, line, tokens, some o⟩
    if atEnd then next.closeCommand else next
  | none =>
    let command? :=
      if piece.kind? == some (.words .command) && !atEnd && startsStatement s.tokens then
        some ⟨[], tokens, stop⟩
      else none
    ⟨stop, line, tokens, command?⟩

end LexState

/-- Reads the pieces of a text and adds them to a state. -/
def tokenizeFrom (rules : LexRules) (s : LexState) : List Char → Except TokenFault (List Token)
  | [] => .ok s.closeCommand.tokens.reverse
  | c :: rest =>
    match Piece.read rules (s.tokens.head?.map (·.kind)) c rest with
    | .ok piece =>
      tokenizeFrom rules (s.push piece (c :: rest)) (rest.drop (piece.size - 1))
    | .error (.badDigits past) => .error (.badDigits (s.offset + past))
    | .error fault => .error fault
termination_by cs => cs.length
decreasing_by simp only [List.length_drop, List.length_cons]; omega

/-- The tokens of a script in source order. -/
def tokenize (dialect : Dialect) (script : List Char) : Except TokenFault (List Token) :=
  tokenizeFrom dialect.rules LexState.initial script

/-- What cuts scripts into tokens. All that reads scripts takes one, so that nothing depends on how
it is done. -/
structure Tokenizer where
  cut : List Char → Except TokenFault (List Token)

/-- The tokenizer of a dialect by the rules of this library. -/
def Dialect.tokenizer (dialect : Dialect) : Tokenizer := ⟨tokenize dialect⟩

instance : Coe Dialect Tokenizer := ⟨Dialect.tokenizer⟩

end TableDocs.Sql
