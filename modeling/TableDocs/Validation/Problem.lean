/-!
# TableDocs — problems of values

A value that is not what a field asks for has a problem: where it stands, and what is wrong with it.
All problems of a value are reported, not the first one alone.
-/

namespace TableDocs.Validation

/-- One step into a value. -/
inductive Step
  | key (name : String)
  | index (n : Nat)
  deriving DecidableEq, Repr

/-- Where a value comes from; some messages name its shape by it. -/
inductive Origin
  /-- A JSON text. -/
  | document
  /-- Values of the program. -/
  | program
  deriving DecidableEq, Repr

inductive Cause
  | missing
  | noText
  | noBool
  | unreadableBool
  | noInt
  | unreadableInt
  | fractionalInt
  | oversizedInt
  | notFinite
  | below (least : Int)
  | above (most : Int)
  | noneOf (choices : List String)
  /-- A rule of the field refuses the value. -/
  | refused (why : String)
  | noList (origin : Origin)
  | noObject (origin : Origin) (model : String)
  deriving DecidableEq, Repr

namespace Cause

/-- The short name of a cause. -/
def code : Cause → String
  | missing => "missing"
  | noText => "string_type"
  | noBool => "bool_type"
  | unreadableBool => "bool_parsing"
  | noInt => "int_type"
  | unreadableInt => "int_parsing"
  | fractionalInt => "int_from_float"
  | oversizedInt => "int_parsing_size"
  | notFinite => "finite_number"
  | below _ => "greater_than_equal"
  | above _ => "less_than_equal"
  | noneOf _ => "literal_error"
  | refused _ => "value_error"
  | noList _ => "list_type"
  | noObject _ _ => "model_type"

/-- Choices in quotes, the last two joined by "or". -/
def orList : List String → String
  | [] => ""
  | [a] => "'" ++ a ++ "'"
  | [a, b] => "'" ++ a ++ "' or '" ++ b ++ "'"
  | a :: rest => "'" ++ a ++ "', " ++ orList rest

def message : Cause → String
  | missing => "Field required"
  | noText => "Input should be a valid string"
  | noBool => "Input should be a valid boolean"
  | unreadableBool => "Input should be a valid boolean, unable to interpret input"
  | noInt => "Input should be a valid integer"
  | unreadableInt => "Input should be a valid integer, unable to parse string as an integer"
  | fractionalInt => "Input should be a valid integer, got a number with a fractional part"
  | oversizedInt => "Unable to parse input string as an integer, exceeded maximum size"
  | notFinite => "Input should be a finite number"
  | below least => "Input should be greater than or equal to " ++ toString least
  | above most => "Input should be less than or equal to " ++ toString most
  | noneOf choices => "Input should be " ++ orList choices
  | refused why => "Value error, " ++ why
  | noList .document => "Input should be a valid array"
  | noList .program => "Input should be a valid list"
  | noObject .document _ => "Input should be an object"
  | noObject .program model => "Input should be a valid dictionary or instance of " ++ model

end Cause

structure Problem where
  path : List Step
  cause : Cause
  deriving DecidableEq, Repr

namespace Problem

/-- Moves a problem one step inwards. -/
def under (step : Step) (p : Problem) : Problem :=
  { p with path := step :: p.path }

/-- The problem as one line of text, indented. -/
def describe (p : Problem) : String :=
  let step : Step → String
    | .key name => name
    | .index n => toString n
  "  " ++ ".".intercalate (p.path.map step) ++ ": " ++ p.cause.message

end Problem

/-- The line that opens a report of `count` problems of a model. -/
def headline (count : Nat) (model : String) : String :=
  toString count ++ " validation " ++ (if count = 1 then "error" else "errors") ++ " for " ++ model

end TableDocs.Validation
