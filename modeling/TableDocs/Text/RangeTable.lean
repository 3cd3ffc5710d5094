/-!
# TableDocs — tables of code points

A character class outside ASCII is a sorted table of ranges, written down as runs of hexadecimal
numbers so that a table stays a few lines of text. Membership is a binary search.
-/

namespace TableDocs.Text

/-- The value of a hexadecimal digit written in lower case; any other character counts as zero. -/
def hexDigit (c : Char) : Nat :=
  if '0' ≤ c ∧ c ≤ '9' then c.toNat - '0'.toNat
  else if 'a' ≤ c ∧ c ≤ 'f' then c.toNat - 'a'.toNat + 10
  else 0

/-- Reads hexadecimal numbers separated by single spaces; `pending` is the number under way. -/
def hexNumbersFrom (pending : Nat) : List Char → List Nat
  | [] => [pending]
  | ' ' :: rest => pending :: hexNumbersFrom 0 rest
  | c :: rest => hexNumbersFrom (pending * 16 + hexDigit c) rest

/-- The numbers written on the lines of a table. -/
def hexNumbers (lines : List String) : List Nat :=
  lines.flatMap fun line => hexNumbersFrom 0 line.toList

/-- A set of numbers as ascending ranges; both ends of a range belong to it. -/
structure RangeTable where
  ranges : Array (Nat × Nat)

namespace RangeTable

/-- Pairs up the lengths of gaps and runs, starting at `start`. -/
def rangesFrom (start : Nat) : List Nat → List (Nat × Nat)
  | gap :: run :: rest =>
    (start + gap, start + gap + run - 1) :: rangesFrom (start + gap + run) rest
  | _ => []

/-- The table whose gaps and runs, counted from zero, have the given lengths in turn. -/
def ofGaps (lines : List String) : RangeTable :=
  ⟨(rangesFrom 0 (hexNumbers lines)).toArray⟩

/-- The range among positions `lo ≤ i < hi` that holds `n`. -/
def find? (t : RangeTable) (n lo hi : Nat) : Option (Nat × Nat) :=
  if lo < hi then
    match t.ranges[(lo + hi) / 2]? with
    | none => none
    | some (first, last) =>
      if n < first then t.find? n lo ((lo + hi) / 2)
      else if last < n then t.find? n ((lo + hi) / 2 + 1) hi
      else some (first, last)
  else none
termination_by hi - lo

/-- The range that holds the character's code point. -/
def rangeOf? (t : RangeTable) (c : Char) : Option (Nat × Nat) :=
  t.find? c.toNat 0 t.ranges.size

def contains (t : RangeTable) (c : Char) : Bool :=
  (t.rangeOf? c).isSome

end RangeTable

end TableDocs.Text
