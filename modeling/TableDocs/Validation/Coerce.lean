import TableDocs.Text.Integer
import TableDocs.Validation.Checked

/-!
# TableDocs — lax readings of values

Text is text and nothing else. Truth values and integers may also be written as numbers or text of
certain forms.
-/

namespace TableDocs.Validation

open TableDocs.Data

def asText : Value → Checked String
  | .text s => .valid s
  | _ => .fail .noText

/-- Text, and null for no text. -/
def asTextOrNull : Value → Checked String
  | .null => .valid ""
  | v => asText v

def trueWords : List String :=
  ["1", "on", "t", "true", "y", "yes"]

def falseWords : List String :=
  ["0", "off", "f", "false", "n", "no"]

/-- The least number that is too large for 64 bits with a sign. -/
def wordLimit : Int := 0x8000000000000000

/-- Does the number fit into 64 bits with a sign? -/
def fitsWord (n : Int) : Bool :=
  -wordLimit ≤ n && n < wordLimit

/-- A truth value, the numbers zero and one, and some words in any letter case of ASCII. -/
def asBool : Value → Checked Bool
  | .bool b => .valid b
  | .int n =>
    if n = 0 then .valid false
    else if n = 1 then .valid true
    else if fitsWord n then .fail .unreadableBool
    else .fail .noBool
  | .real x =>
    match x.integer? with
    | some 0 => .valid false
    | some 1 => .valid true
    | _ => .fail .noBool
  | .text s =>
    let word := String.ofList (s.toList.map Char.toLower)
    if trueWords.contains word then .valid true
    else if falseWords.contains word then .valid false
    else .fail .unreadableBool
  | _ => .fail .noBool

/-- A text longer than this many bytes is not tried as a number. -/
def longestNumber : Nat := 4300

/-- An integer, a truth value, a number without a fraction, and text that writes an integer. -/
def asInt : Value → Checked Int
  | .int n => .valid n
  | .bool b => .valid (if b then 1 else 0)
  | .real x =>
    if !x.isFinite then .fail .notFinite
    else match x.integer? with
      | none => .fail .fractionalInt
      | some n => if -wordLimit < n && n < wordLimit then .valid n else .fail .oversizedInt
  | .text s =>
    if s.utf8ByteSize > longestNumber then .fail .oversizedInt
    else match Text.Integer.parsePlain? s with
      | some n => .valid n
      | none => .fail .unreadableInt
  | _ => .fail .noInt

/-- An integer between bounds. -/
def asIntBetween (least most : Int) (v : Value) : Checked Int :=
  (asInt v).bind fun n =>
    if n < least then .fail (.below least)
    else if most < n then .fail (.above most)
    else .valid n

/-- One of several choices, by its name. -/
def asChoice {α : Type} (ofName? : String → Option α) (names : List String) : Value → Checked α
  | .text s =>
    match ofName? s with
    | some a => .valid a
    | none => .fail (.noneOf names)
  | _ => .fail (.noneOf names)

/-- A list whose items all pass a check. -/
def asList {α : Type} (origin : Origin) (check : Value → Checked α) : Value → Checked (List α)
  | .list items => Checked.itemsFrom check 0 items
  | _ => .fail (.noList origin)

/-- An object, whose members are checked together. -/
def asObject {α : Type} (origin : Origin) (model : String)
    (check : List (String × Value) → Checked α) : Value → Checked α
  | .object members => check members
  | _ => .fail (.noObject origin model)

end TableDocs.Validation
