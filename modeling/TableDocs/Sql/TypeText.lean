import TableDocs.Sql.Group
import TableDocs.Text.WordChar

/-!
# TableDocs — the text of a column's type

A type is a base word with continuations, a precision in parentheses, array suffixes in square
brackets, a time zone clause and numeric attributes. Its text is the source text with each gap
reduced to one space, and to nothing inside parentheses and brackets or before a comma.
-/

namespace TableDocs.Sql.TypeText

/-- Can the keyword be the base word of a type: a letter of ASCII or underscore, then word
characters? -/
def isBaseWord (keyword : String) : Bool :=
  match keyword.toList with
  | [] => false
  | c :: rest => Text.isPlainNameStart c && rest.all Text.isWordChar

/-- No space stands before these marks. -/
def closesUp (l : Lexeme) : Bool :=
  [Punct.openParen, .closeParen, .openBracket, .closeBracket, .comma].any l.isPunct

/-- No space stands behind these marks. -/
def opensTight (l : Lexeme) : Bool :=
  [Punct.openParen, .openBracket].any l.isPunct

/-- What stands between two neighbours: one space where the source has a gap and neither mark
forbids it. -/
def gap (previous l : Lexeme) : List Char :=
  if previous.stop < l.start && !closesUp l && !opensTight previous then [' '] else []

/-- The text of lexemes that follow `previous`. -/
def textAfter (script : Array Char) (previous : Lexeme) : List Lexeme → List Char
  | [] => []
  | l :: ls => gap previous l ++ slice script l.start l.stop ++ textAfter script l ls

/-- The source text of the lexemes with their gaps reduced. -/
def normalize (script : Array Char) : List Lexeme → List Char
  | [] => []
  | l :: ls => slice script l.start l.stop ++ textAfter script l ls

/-- Splits off the keywords of a set at the front. -/
def spanWords (words : List String) (ls : List Lexeme) : List Lexeme × List Lexeme :=
  ls.span fun l => words.contains l.keyword

/-- Splits off a precision in parentheses. -/
def splitPrecision (ls : List Lexeme) : List Lexeme × List Lexeme :=
  match Group.read? ls with
  | some (opening, g) => (opening :: g.inner ++ [g.close], g.rest)
  | none => ([], ls)

/-- Splits off array suffixes; none when a bracket is not closed. -/
def splitArrays? (ls : List Lexeme) : Option (List Lexeme × List Lexeme) :=
  match ls with
  | [] => some ([], [])
  | l :: tail =>
    if l.isPunct .openBracket then
      match _h : Lexeme.splitAt? .closeBracket tail with
      | none => none
      | some (inner, close, rest) =>
        (splitArrays? rest).map fun (more, after) => (l :: inner ++ close :: more, after)
    else some ([], l :: tail)
termination_by ls.length
decreasing_by
  have := Lexeme.length_of_splitAt? _h
  simp only [List.length_cons]
  omega

/-- Splits off `WITH TIME ZONE` or `WITHOUT TIME ZONE`. -/
def splitTimeZone (ls : List Lexeme) : List Lexeme × List Lexeme :=
  match ls with
  | a :: b :: c :: rest =>
    if (a.keyword = "WITH" || a.keyword = "WITHOUT") && b.keyword = "TIME" && c.keyword = "ZONE"
    then ([a, b, c], rest)
    else ([], ls)
  | _ => ([], ls)

/-- Splits a column definition behind its type, which `base` starts; none when a bracket is not
closed. -/
def split? (base : Lexeme) (ls : List Lexeme) : Option (List Lexeme × List Lexeme) :=
  let (continuations, ls) := spanWords ["VARYING", "PRECISION"] ls
  let (precision, ls) := splitPrecision ls
  (splitArrays? ls).map fun (arrays, ls) =>
    let (zone, ls) := splitTimeZone ls
    let (attributes, ls) := spanWords ["UNSIGNED", "SIGNED", "ZEROFILL"] ls
    (base :: continuations ++ precision ++ arrays ++ zone ++ attributes, ls)

end TableDocs.Sql.TypeText
