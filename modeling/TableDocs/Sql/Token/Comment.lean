import TableDocs.Sql.Token.Piece

/-!
# TableDocs — comments of a script

A comment opens with a mark. A line comment runs to the end of its line, which stays outside; a
block comment runs through its closing mark and may hold further comments where the dialect counts
them.
-/

namespace TableDocs.Sql.Comment

/-- How a comment ends. -/
inductive Extent
  | line
  | block (close : List Char)

/-- The marks that open a comment. -/
def openers (rules : LexRules) : List (String × Extent) :=
  [("--", .line), ("/*", .block ['*', '/']), ("\x7b#", .block ['#', '\x7d'])] ++
    (if rules.hashComments then [("#", .line)] else []) ++
    (if rules.hints then [("/*+", .block ['*', '/'])] else [])

/-- May a comment of two dashes stand before this text? -/
def dashesOpen (rules : LexRules) (after : List Char) : Bool :=
  match after with
  | [] => true
  | c :: _ => !rules.spacedDashComments || Text.isBlank c || c.toNat < 0x20 || c.toNat == 0x7F

def endsLine (rules : LexRules) (c : Char) : Bool :=
  c == '\n' || (rules.returnEndsComment && c == '\r')

/-- Length of a line comment after its mark. -/
def lineLength (rules : LexRules) (after : List Char) : Nat :=
  (after.takeWhile fun c => !endsLine rules c).length

/-- Length of a block comment after its mark, closing mark included; none when the script ends
first. `depth` comments are open besides this one. A comment inside cannot open at the very first
character, nor by the last two of the script. -/
def blockLength? (opening close : List Char) (nested : Bool) (depth : Nat) : List Char → Option Nat
  | [] => none
  | c :: rest =>
    if rest.isEmpty then none
    else if close.isPrefixOf (c :: rest) && depth == 0 then some close.length
    else
      let depth := if close.isPrefixOf (c :: rest) then depth - 1 else depth
      if nested && opening.isPrefixOf rest then
        (blockLength? opening close nested (depth + 1) (rest.drop opening.length)).map
          (· + opening.length + 1)
      else (blockLength? opening close nested depth rest).map (· + 1)
termination_by cs => cs.length
decreasing_by all_goals simp; try omega

/-- Reads a comment after its opening mark: how many characters belong to it. -/
def read (rules : LexRules) (opening : List Char) (extent : Extent) (after : List Char) :
    Except TokenFault Nat :=
  match extent with
  | .line => .ok (lineLength rules after)
  | .block close =>
    let nested := rules.nestedComments && opening.length == close.length
    match blockLength? opening close nested 0 after with
    | some n => .ok n
    | none => .error .cutShort

end TableDocs.Sql.Comment
