import TableDocs.Sql.Token.Comment
import TableDocs.Text.CaseMap

/-!
# TableDocs — marks and phrases with a meaning of their own

Some tokens are known by how they start: comments and literals by their opening mark, and phrases of
several marks or words by their whole text. Letters match in either case and one blank of a phrase
matches any run of blanks. The longest match decides.
-/

namespace TableDocs.Sql

/-- What starts with a known mark. -/
inductive Opening
  | literal (form : StringForm)
  | comment (extent : Comment.Extent)
  | phrase

namespace Phrase

/-- Takes the characters of a phrase off another text. -/
def dropPrefix? : List Char → List Char → Option (List Char)
  | [], cs => some cs
  | p :: ps, c :: cs => if p == c then dropPrefix? ps cs else none
  | _ :: _, [] => none

/-- How many characters of a text a phrase in upper case takes. After the first blank of a run the
others are skipped. -/
def matchLength? (inBlanks : Bool) (phrase : List Char) : List Char → Option Nat
  | [] => if phrase.isEmpty then some 0 else none
  | c :: rest =>
    if phrase.isEmpty then some 0
    else if Text.isBlank c then
      if inBlanks then (matchLength? true phrase rest).map (· + 1)
      else match phrase with
        | ' ' :: more => (matchLength? true more rest).map (· + 1)
        | _ => none
    else match dropPrefix? (Text.upperChar c) phrase with
      | some more => (matchLength? false more rest).map (· + 1)
      | none => none

/-- All marks and phrases of a dialect with their meaning. -/
def table (rules : LexRules) : List (List Char × Opening) :=
  rules.strings.map (fun form => (form.mark.toList, Opening.literal form)) ++
    (Comment.openers rules).map (fun (mark, extent) => (mark.toList, Opening.comment extent)) ++
    rules.phrases.map (fun phrase => (phrase.toList, Opening.phrase))

/-- May the opening stand where this text follows it? Only dashes ask. -/
def allowed (rules : LexRules) (mark : List Char) (after : List Char) : Bool :=
  mark != ['-', '-'] || Comment.dashesOpen rules after

/-- The longest known start of a text: its phrase, what it opens, and its length in the text. -/
def longest? (rules : LexRules) (cs : List Char) : Option (List Char × Opening × Nat) :=
  (table rules).foldl (fun best (phrase, opening) =>
    match matchLength? false phrase cs with
    | none => best
    | some n =>
      if !allowed rules phrase (cs.drop n) then best
      else match best with
        | some (other, _, _) =>
          if phrase.length > other.length then some (phrase, opening, n) else best
        | none => some (phrase, opening, n)) none

/-- A phrase of letters counts only before a blank, a mark or the end of the script; one with a mark
inside counts always. -/
def isWhole (rules : LexRules) (cs : List Char) (n : Nat) : Bool :=
  (cs.take n).any (Piece.isSingleMark rules) ||
    match cs.drop n with
    | [] => true
    | c :: _ => Text.isBlank c || Piece.isSingleMark rules c

end Phrase

end TableDocs.Sql
