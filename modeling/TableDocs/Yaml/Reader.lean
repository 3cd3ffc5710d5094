import TableDocs.Yaml.Layout
import TableDocs.Yaml.PlainValue

/-!
# TableDocs — reading YAML

A text holds at most one document, and the document is a value built from its tokens. Keys that are
no text are read and dropped: nothing asks for them.
-/

namespace TableDocs.Yaml

open TableDocs.Data

namespace Reader

/-- What was read, with the tokens behind it. -/
abbrev Read (α : Type) := α × List Token

/-- Reads a token that the grammar does not expect; a token that is a fault is the fault itself. -/
def unexpected {α : Type} (f : Fault) : List Token → Except Fault α
  | .fault g :: _ => .error g
  | _ => .error f

/-- Adds a member to a mapping. A list or a mapping is no key, and of other keys only text counts.
-/
def addMember (key v : Value) (members : List (String × Value)) :
    Except Fault (List (String × Value)) :=
  match key with
  | .list _ => .error .badMapping
  | .object _ => .error .badMapping
  | .text k => .ok ((k, v) :: members)
  | _ => .ok members

/-- Does the list start with one of some tokens, or end? -/
def startsWith (ts : List Token) (ends : Bool) (p : Token → Bool) : Bool :=
  match ts with
  | [] => ends
  | t :: _ => p t

def isEntryEnd : Token → Bool
  | .blockEntry | .blockEnd => true
  | _ => false

def isPairEnd : Token → Bool
  | .key | .value | .blockEnd => true
  | _ => false

def isFlowPairEnd (close : Token) (t : Token) : Bool :=
  t == .flowEntry || t == close

mutual

/-- Reads a node. `fuel` bounds the depth of the reading; `block` and `bare` say whether a block may
stand here, and a list without a block of its own. -/
def node (fuel : Nat) (block bare : Bool) (ts : List Token) : Except Fault (Read Value) :=
  match fuel with
  | 0 => .error .noBlockNode
  | fuel + 1 =>
    match ts with
    | .scalar plain text :: rest =>
      if plain then
        match PlainValue.read? text with
        | some v => .ok (v, rest)
        | none => .error .badScalar
      else .ok (.text text, rest)
    | .flowSequence :: rest => (flowItems fuel true rest).map fun (vs, ts) => (.list vs, ts)
    | .flowMapping :: rest => (flowMembers fuel true rest).map fun (ms, ts) => (.object ms, ts)
    | .blockEntry :: rest =>
      if bare then (bareItems fuel (.blockEntry :: rest)).map fun (vs, ts) => (.list vs, ts)
      else .error (if block then .noBlockNode else .noFlowNode)
    | .blockSequence :: rest =>
      if block then (blockItems fuel rest).map fun (vs, ts) => (.list vs, ts)
      else .error .noFlowNode
    | .blockMapping :: rest =>
      if block then (blockMembers fuel rest).map fun (ms, ts) => (.object ms, ts)
      else .error .noFlowNode
    | ts => unexpected (if block then .noBlockNode else .noFlowNode) ts

/-- Reads the node behind a mark of a block; before some tokens it is nothing. -/
def blockNode (fuel : Nat) (bare : Bool) (absent : Token → Bool) (ts : List Token) :
    Except Fault (Read Value) :=
  match fuel with
  | 0 => .error .noBlockNode
  | fuel + 1 => if startsWith ts false absent then .ok (.null, ts) else node fuel true bare ts

/-- Reads the entries of a block sequence up to its end. -/
def blockItems (fuel : Nat) (ts : List Token) : Except Fault (Read (List Value)) :=
  match fuel with
  | 0 => .error .blockSequence
  | fuel + 1 =>
    match ts with
    | .blockEntry :: rest => do
      let (v, rest) ← blockNode fuel false isEntryEnd rest
      let (vs, rest) ← blockItems fuel rest
      return (v :: vs, rest)
    | .blockEnd :: rest => .ok ([], rest)
    | ts => unexpected .blockSequence ts

/-- Reads the entries of a list that stands as deep as the mapping around it. -/
def bareItems (fuel : Nat) (ts : List Token) : Except Fault (Read (List Value)) :=
  match fuel with
  | 0 => .error .blockSequence
  | fuel + 1 =>
    match ts with
    | .blockEntry :: rest => do
      let (v, rest) ← blockNode fuel false (fun t => isEntryEnd t || isPairEnd t) rest
      let (vs, rest) ← bareItems fuel rest
      return (v :: vs, rest)
    | ts => .ok ([], ts)

/-- Reads the value of a member of a block mapping, which may be missing. -/
def blockValue (fuel : Nat) (ts : List Token) : Except Fault (Read Value) :=
  match fuel with
  | 0 => .error .blockMapping
  | fuel + 1 =>
    match ts with
    | .value :: rest => blockNode fuel true isPairEnd rest
    | ts => .ok (.null, ts)

/-- Reads the members of a block mapping up to its end. -/
def blockMembers (fuel : Nat) (ts : List Token) :
    Except Fault (Read (List (String × Value))) :=
  match fuel with
  | 0 => .error .blockMapping
  | fuel + 1 =>
    match ts with
    | .key :: rest => do
      let (k, rest) ← blockNode fuel true isPairEnd rest
      let (v, rest) ← blockValue fuel rest
      let (ms, rest) ← blockMembers fuel rest
      return (← addMember k v ms, rest)
    | .value :: rest => do
      let (v, rest) ← blockValue fuel (.value :: rest)
      let (ms, rest) ← blockMembers fuel rest
      return (← addMember .null v ms, rest)
    | .blockEnd :: rest => .ok ([], rest)
    | ts => unexpected .blockMapping ts

/-- Reads a node of a flow collection; before some tokens it is nothing. -/
def flowNode (fuel : Nat) (absent : Token → Bool) (ts : List Token) : Except Fault (Read Value) :=
  match fuel with
  | 0 => .error .noFlowNode
  | fuel + 1 => if startsWith ts false absent then .ok (.null, ts) else node fuel false false ts

/-- Reads the key and the value of a pair in a flow collection that `close` ends. -/
def flowPair (fuel : Nat) (close : Token) (ts : List Token) :
    Except Fault (Read (Value × Value)) :=
  match fuel with
  | 0 => .error .noFlowNode
  | fuel + 1 => do
    let (k, rest) ← flowNode fuel (fun t => t == .value || isFlowPairEnd close t) ts
    match rest with
    | .value :: rest =>
      let (v, rest) ← flowNode fuel (isFlowPairEnd close) rest
      return ((k, v), rest)
    | rest => return ((k, .null), rest)

/-- Reads the items of a flow sequence up to its end. A comma stands before each but the first. -/
def flowItems (fuel : Nat) (first : Bool) (ts : List Token) : Except Fault (Read (List Value)) :=
  match fuel with
  | 0 => .error .flowSequence
  | fuel + 1 =>
    match ts with
    | .flowSequenceEnd :: rest => .ok ([], rest)
    | ts => do
      let ts ←
        if first then pure ts
        else match ts with
          | .flowEntry :: rest => pure rest
          | ts => unexpected .flowSequence ts
      match ts with
      | .flowSequenceEnd :: rest => return ([], rest)
      | .key :: rest =>
        let ((k, v), rest) ← flowPair fuel .flowSequenceEnd rest
        let members ← addMember k v []
        let (vs, rest) ← flowItems fuel false rest
        return (.object members :: vs, rest)
      | ts =>
        let (v, rest) ← node fuel false false ts
        let (vs, rest) ← flowItems fuel false rest
        return (v :: vs, rest)

/-- Reads the members of a flow mapping up to its end. A comma stands before each but the first. -/
def flowMembers (fuel : Nat) (first : Bool) (ts : List Token) :
    Except Fault (Read (List (String × Value))) :=
  match fuel with
  | 0 => .error .flowMapping
  | fuel + 1 =>
    match ts with
    | .flowMappingEnd :: rest => .ok ([], rest)
    | ts => do
      let ts ←
        if first then pure ts
        else match ts with
          | .flowEntry :: rest => pure rest
          | ts => unexpected .flowMapping ts
      match ts with
      | .flowMappingEnd :: rest => return ([], rest)
      | .key :: rest =>
        let ((k, v), rest) ← flowPair fuel .flowMappingEnd rest
        let (ms, rest) ← flowMembers fuel false rest
        return (← addMember k v ms, rest)
      | ts =>
        let (k, rest) ← node fuel false false ts
        let (ms, rest) ← flowMembers fuel false rest
        return (← addMember k .null ms, rest)

end

/-- Reads what stands behind the document: marks that end it, and nothing else. -/
def expectEnd (ts : List Token) : Except Fault Unit :=
  match ts.dropWhile (· == .documentEnd) with
  | [] => .ok ()
  | .documentStart :: _ => .error .severalDocuments
  | .fault f :: _ => .error f
  | t :: _ => .error (.noDocumentStart t.name)

/-- Reads the document; a text of nothing but comments has none. -/
def document (ts : List Token) : Except Fault Value :=
  let fuel := 3 * ts.length + 3
  match ts.dropWhile (· == .documentEnd) with
  | [] => .ok .null
  | .documentStart :: rest =>
    if startsWith rest true fun t => t == .documentStart || t == .documentEnd then
      (expectEnd rest).map fun _ => .null
    else do
      let (v, rest) ← node fuel true false rest
      expectEnd rest
      return v
  | rest => do
    let (v, rest) ← node fuel true false rest
    expectEnd rest
    return v

end Reader

/-- The value that a text denotes. -/
def read (text : String) : Except Fault Value :=
  Reader.document (tokensOf text.toList)

/-! ## Parsers

Settings are read with any parser: what a text denotes is its affair. -/

/-- The value that a text denotes, or the first line of the report why it denotes none. -/
abbrev Parser := String → Except String Value

/-- The parser of this library. It knows no anchors, tags, block scalars and directives, and a merge
key is a member like all others. -/
def parse : Parser :=
  fun text => (read text).mapError Fault.headline

end TableDocs.Yaml
