import TableDocs.Json.Token

/-!
# TableDocs — reading JSON

A machine walks the tokens of a text and keeps the lists and objects that are still open on a stack.
It refuses a token that the format does not allow where it stands, so a text has at most one
reading.
-/

namespace TableDocs.Json

open TableDocs.Data

/-- A list or an object that is still open. What it holds so far stands last one first. -/
inductive Frame
  | list (items : List Value)
  | object (members : List (String × Value))
  /-- An object with a key whose value is still to come. -/
  | member (members : List (String × Value)) (key : String)

/-- What may come next. -/
inductive Stage
  | value
  /-- A value or the end of an empty list. -/
  | firstItem
  /-- A key or the end of an empty object. -/
  | firstKey
  | key
  | colon (key : String)
  /-- A comma or the end of the innermost list or object. -/
  | separator
  /-- Nothing: the value is complete. -/
  | done (v : Value)

structure Machine where
  frames : List Frame
  stage : Stage

namespace Machine

def start : Machine := ⟨[], .value⟩

/-- Puts a complete value where it belongs. -/
def put (v : Value) : List Frame → Machine
  | .list items :: frames => ⟨.list (v :: items) :: frames, .separator⟩
  | .member members key :: frames => ⟨.object ((key, v) :: members) :: frames, .separator⟩
  | frames => ⟨frames, .done v⟩

/-- Starts a value: a scalar is complete at once. -/
def open? (frames : List Frame) : Token → Option Machine
  | .scalar v => some (put v frames)
  | .openList => some ⟨.list [] :: frames, .firstItem⟩
  | .openObject => some ⟨.object [] :: frames, .firstKey⟩
  | _ => none

/-- Ends the innermost list or object by its closing mark. -/
def close? : List Frame → Token → Option Machine
  | .list items :: frames, .closeList => some (put (.list items.reverse) frames)
  | .object members :: frames, .closeObject => some (put (.object members.reverse) frames)
  | _, _ => none

/-- Takes one token. -/
def step (m : Machine) (token : Token) : Option Machine :=
  match m.stage, token with
  | .value, _ => open? m.frames token
  | .firstItem, .closeList => close? m.frames token
  | .firstItem, _ => open? m.frames token
  | .firstKey, .closeObject => close? m.frames token
  | .firstKey, .scalar (.text key) => some ⟨m.frames, .colon key⟩
  | .key, .scalar (.text key) => some ⟨m.frames, .colon key⟩
  | .colon key, .colon =>
    match m.frames with
    | .object members :: frames => some ⟨.member members key :: frames, .value⟩
    | _ => none
  | .separator, .comma =>
    match m.frames with
    | .list _ :: _ => some ⟨m.frames, .value⟩
    | .object _ :: _ => some ⟨m.frames, .key⟩
    | _ => none
  | .separator, _ => close? m.frames token
  | _, _ => none

/-- Takes tokens in turn. -/
def run (m : Machine) : List Token → Option Machine
  | [] => some m
  | token :: tokens => (m.step token).bind fun next => next.run tokens

/-- The value of a machine that waits for nothing. -/
def result? (m : Machine) : Option Value :=
  match m.stage with
  | .done v => some v
  | _ => none

end Machine

/-- Reads a text that is one JSON value, blanks around it allowed. -/
def read? (text : List Char) : Option Value :=
  (Token.ofText? text).bind fun tokens => (Machine.start.run tokens).bind Machine.result?

/-! ## Parsers

The format sets no limits, but parsers do. So what reads documents takes a parser, and relies on no
more of it than is said where it does. -/

/-- The value of a text that a parser takes for a document. -/
abbrev Parser := List Char → Option Value

/-- How many lists and objects may stand inside each other for the parser of this library. -/
def mostNested : Nat := 200

/-- The parser of this library. It refuses what is nested too deep. The length of numbers is not
limited here, and the words for what is no finite number are refused, as the format has it. -/
def parse? : Parser :=
  fun text => (read? text).filter fun v => v.nesting ≤ mostNested

end TableDocs.Json
