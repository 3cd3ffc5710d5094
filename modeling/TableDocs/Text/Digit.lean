import TableDocs.Text.RangeTable

/-!
# TableDocs — digits of all scripts

Decimal digits come in blocks of ten, zero first, so a digit's value is its place in the block.
A wider class adds the digits that do not form numbers by position, such as superscripts.
-/

namespace TableDocs.Text

/-- Decimal digits beyond ASCII. -/
def wideDecimalTable : RangeTable := .ofGaps
  ["660 a 86 a c6 a 19c a 76 a 76 a 76 a 76 a 76 a 76 a 76 a 76 a 76 a 60 a 76 a 46 a 116 a",
  "46 a 746 a 26 a 12c a 80 a a6 a 6 a b6 a 56 a 86 a 6 a 89c6 a 2a6 a 26 a c6 a 16 a 56 a",
  "196 a 5316 a 586 a 886 a 32c a 80 a 3c a 90 a 116 a 156 a 76 a 176 a 66 a 66 a 1a6 a 66",
  "a 2f6 a f6 a 46 a 4cb6 a 56 a 86 a 6c74 32 940 a 1a6 a 656 a 1296 a"]

/-- Digits beyond ASCII, superscripts and circled digits included. -/
def wideDigitTable : RangeTable := .ofGaps
  ["b2 2 5 1 5a6 a 86 a c6 a 19c a 76 a 76 a 76 a 76 a 76 a 76 a 76 a 76 a 76 a 60 a 76 a",
  "46 a 116 a 46 a 2cf 9 46e a 26 a 12c a 80 b a5 a 6 a b6 a 56 a 86 a 6 a 416 1 3 6 6 a",
  "3d6 9 b 9 b 9 59 1 a 9 1 1 276 9 1 9 1 9 7e8d a 2a6 a 26 a c6 a 16 a 56 a 196 a 5316 a",
  "586 a 596 4 2ec a 126 9 1e9 9 b a 80 a 3c a 90 a 116 a 156 a 76 a 176 a 66 a 66 a 1a6 a",
  "66 a 2f6 a f6 a 46 a 4cb6 a 56 a 86 a 6c74 32 940 a 1a6 a 656 a 7a6 b ae5 a"]

/-- The value of a decimal digit. -/
def decimalValue? (c : Char) : Option Nat :=
  if c.toNat < 128 then
    if c.isDigit then some (c.toNat - '0'.toNat) else none
  else (wideDecimalTable.rangeOf? c).map fun (first, _) => (c.toNat - first) % 10

def isAnyDigit (c : Char) : Bool :=
  if c.toNat < 128 then c.isDigit else wideDigitTable.contains c

end TableDocs.Text
