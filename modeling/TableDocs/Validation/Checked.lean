import TableDocs.Data.Value
import TableDocs.Validation.Problem

/-!
# TableDocs — checked values

The result of a check is a value or a list of problems. Checks of several fields are joined by
`andThen`, which keeps the problems of both sides, in order.
-/

namespace TableDocs.Validation

open TableDocs.Data

inductive Checked (α : Type)
  | valid (a : α)
  | invalid (problems : List Problem)
  deriving DecidableEq, Repr

namespace Checked

variable {α β : Type}

def map (f : α → β) : Checked α → Checked β
  | valid a => valid (f a)
  | invalid ps => invalid ps

/-- Applies a checked function to a checked value; problems of both sides are kept. -/
def andThen (f : Checked (α → β)) (x : Checked α) : Checked β :=
  match f, x with
  | valid g, valid a => valid (g a)
  | valid _, invalid ps => invalid ps
  | invalid ps, valid _ => invalid ps
  | invalid ps, invalid qs => invalid (ps ++ qs)

/-- Continues with a further check, which is not made where there are problems already. -/
def bind (x : Checked α) (f : α → Checked β) : Checked β :=
  match x with
  | valid a => f a
  | invalid ps => invalid ps

/-- A value with a single problem right at it. -/
def fail (cause : Cause) : Checked α :=
  invalid [⟨[], cause⟩]

/-- Moves problems one step inwards. -/
def under (step : Step) : Checked α → Checked α
  | valid a => valid a
  | invalid ps => invalid (ps.map (Problem.under step))

/-- Checks every item of a list from a position on. -/
def itemsFrom (check : Value → Checked α) (position : Nat) : List Value → Checked (List α)
  | [] => valid []
  | v :: vs =>
    (((check v).under (.index position)).map List.cons).andThen (itemsFrom check (position + 1) vs)

end Checked

/-- The first of several keys that a member has, and its value. -/
def findMember? (members : List (String × Value)) : List String → Option (String × Value)
  | [] => none
  | key :: keys =>
    match Value.member? members key with
    | some v => some (key, v)
    | none => findMember? members keys

/-- Checks a member that has to be there. It may be given by any of several keys; the first that is
there counts, and the first of all is named where none is. -/
def required {α : Type} (members : List (String × Value)) (keys : List String)
    (check : Value → Checked α) : Checked α :=
  match findMember? members keys with
  | some (key, v) => (check v).under (.key key)
  | none => (Checked.fail .missing).under (.key (keys.headD ""))

/-- Checks a member that may be missing. -/
def optional {α : Type} (members : List (String × Value)) (keys : List String) (default : α)
    (check : Value → Checked α) : Checked α :=
  match findMember? members keys with
  | some (key, v) => (check v).under (.key key)
  | none => .valid default

end TableDocs.Validation
