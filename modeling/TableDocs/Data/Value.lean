import TableDocs.Data.Binary64

/-!
# TableDocs — structured values

The values that JSON and YAML documents denote, before anything is asked of them.
-/

namespace TableDocs.Data

inductive Value
  | null
  | bool (b : Bool)
  | int (n : Int)
  | real (x : Binary64)
  | text (s : String)
  | list (items : List Value)
  /-- Members in source order. Where a key is given twice the last member counts. -/
  | object (members : List (String × Value))
  /-- A value of another kind, such as a date. -/
  | other
  deriving Repr, Inhabited

namespace Value

/-- The member of a key; of several the last. -/
def member? (members : List (String × Value)) (key : String) : Option Value :=
  members.reverse.lookup key

mutual

/-- How many lists and objects stand inside each other; empty ones do not count. -/
def nesting : Value → Nat
  | .list items => nestingOfItems items
  | .object members => nestingOfMembers members
  | _ => 0

/-- The nesting of a list with these items. -/
def nestingOfItems : List Value → Nat
  | [] => 0
  | v :: vs => max (v.nesting + 1) (nestingOfItems vs)

/-- The nesting of an object with these members. -/
def nestingOfMembers : List (String × Value) → Nat
  | [] => 0
  | (_, v) :: ms => max (v.nesting + 1) (nestingOfMembers ms)

end

end Value

end TableDocs.Data
