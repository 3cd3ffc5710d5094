/-!
# TableDocs — blanks, words and lines

Blank characters separate words; a slightly smaller set of spacing characters may surround a number;
line boundaries split a text into lines. All three are finite sets of code points.
-/

namespace TableDocs.Text

/-- A blank separates words: the Unicode spaces, the ASCII controls that move the print position
and the four information separators. -/
def isBlank (c : Char) : Bool :=
  let n := c.toNat
  (9 ≤ n && n ≤ 13) || (0x1C ≤ n && n ≤ 0x20) || n == 0x85 || n == 0xA0 || n == 0x1680 ||
    (0x2000 ≤ n && n ≤ 0x200A) || n == 0x2028 || n == 0x2029 || n == 0x202F || n == 0x205F ||
    n == 0x3000

/-- Spacing may surround a number: every blank but the information separators. -/
def isSpacing (c : Char) : Bool :=
  isBlank c && !(0x1C ≤ c.toNat && c.toNat ≤ 0x1F)

/-- Ends a line of text. A carriage return with the line feed after it ends one line only. -/
def isLineEnd (c : Char) : Bool :=
  let n := c.toNat
  (10 ≤ n && n ≤ 13) || (0x1C ≤ n && n ≤ 0x1E) || n == 0x85 || n == 0x2028 || n == 0x2029

/-- Drops the characters of a class at both ends. -/
def trimWhere (p : Char → Bool) (cs : List Char) : List Char :=
  ((cs.dropWhile p).reverse.dropWhile p).reverse

/-- Drops the blanks at both ends. -/
def trim (s : String) : String :=
  String.ofList (trimWhere isBlank s.toList)

/-- Splits at runs of blanks; `pending` holds the word under way, last character first. -/
def wordsFrom (pending : List Char) : List Char → List (List Char)
  | [] => if pending.isEmpty then [] else [pending.reverse]
  | c :: rest =>
    if isBlank c then
      if pending.isEmpty then wordsFrom [] rest else pending.reverse :: wordsFrom [] rest
    else wordsFrom (c :: pending) rest

/-- The words of a text: its longest stretches without a blank. -/
def words (cs : List Char) : List (List Char) :=
  wordsFrom [] cs

/-- The words of a text, one space apart. -/
def collapse (cs : List Char) : List Char :=
  List.intercalate [' '] (words cs)

/-- Splits at line boundaries; `pending` holds the line under way, last character first. -/
def linesFrom (pending : List Char) : List Char → List (List Char)
  | [] => if pending.isEmpty then [] else [pending.reverse]
  | '\r' :: '\n' :: rest => pending.reverse :: linesFrom [] rest
  | c :: rest =>
    if isLineEnd c then pending.reverse :: linesFrom [] rest
    else linesFrom (c :: pending) rest

/-- The lines of a text without their boundaries. A boundary at the end starts no further line. -/
def lines (cs : List Char) : List (List Char) :=
  linesFrom [] cs

end TableDocs.Text
