/-!
# TableDocs — tokens of YAML

The tokens of a YAML text make its indentation explicit: a block opens before its first entry and
ends where the indentation falls back. A text that cannot be read has a fault, known by the line
that opens its report.
-/

namespace TableDocs.Yaml

/-- Why a text is not read. -/
inductive Fault
  | unprintable
  | strayCharacter
  | missingColon
  | misplacedEntry
  | misplacedKey
  | misplacedValue
  | openQuote
  | badEscape
  /-- A node is missing where a block or a flow collection asks for one. -/
  | noBlockNode
  | noFlowNode
  | blockSequence
  | blockMapping
  | flowSequence
  | flowMapping
  /-- Something stands behind the document that starts no other one. -/
  | noDocumentStart (found : String)
  | severalDocuments
  /-- A key is a list or a mapping, or a plain scalar has no value. -/
  | badMapping
  | badScalar
  deriving DecidableEq, Repr

namespace Fault

/-- The first line of the fault's report. -/
def headline : Fault → String
  | unprintable => "unacceptable character"
  | strayCharacter => "while scanning for the next token"
  | missingColon => "while scanning a simple key"
  | misplacedEntry => "sequence entries are not allowed here"
  | misplacedKey => "mapping keys are not allowed here"
  | misplacedValue => "mapping values are not allowed here"
  | openQuote => "while scanning a quoted scalar"
  | badEscape => "while scanning a double-quoted scalar"
  | noBlockNode => "while parsing a block node"
  | noFlowNode => "while parsing a flow node"
  | blockSequence => "while parsing a block collection"
  | blockMapping => "while parsing a block mapping"
  | flowSequence => "while parsing a flow sequence"
  | flowMapping => "while parsing a flow mapping"
  | noDocumentStart found => "expected '<document start>', but found '" ++ found ++ "'"
  | severalDocuments => "expected a single document in the stream"
  | badMapping => "while constructing a mapping"
  | badScalar => "could not determine a constructor for the tag 'tag:yaml.org,2002:value'"

end Fault

inductive Token
  | documentStart
  | documentEnd
  | blockSequence
  | blockMapping
  | blockEnd
  | flowSequence
  | flowSequenceEnd
  | flowMapping
  | flowMappingEnd
  | blockEntry
  | flowEntry
  | key
  | value
  | scalar (plain : Bool) (text : String)
  /-- Reading stopped here. -/
  | fault (f : Fault)
  deriving DecidableEq, Repr

namespace Token

/-- The name of a token in reports. -/
def name : Token → String
  | documentStart => "<document start>"
  | documentEnd => "<document end>"
  | blockSequence => "<block sequence start>"
  | blockMapping => "<block mapping start>"
  | blockEnd => "<block end>"
  | flowSequence => "["
  | flowSequenceEnd => "]"
  | flowMapping => "\x7b"
  | flowMappingEnd => "\x7d"
  | blockEntry => "-"
  | flowEntry => ","
  | key => "?"
  | value => ":"
  | scalar _ _ => "<scalar>"
  | fault _ => "<fault>"

end Token

/-- Ends a line of a YAML text. -/
def isBreak (c : Char) : Bool :=
  c == '\n' || c == '\r' || c.toNat == 0x85 || c.toNat == 0x2028 || c.toNat == 0x2029

/-- A space, a tab or the end of a line. -/
def isGap (c : Char) : Bool :=
  c == ' ' || c == '\t' || isBreak c

/-- Does a text start with a gap, or end? -/
def gapFollows : List Char → Bool
  | [] => true
  | c :: _ => isGap c

/-- Three dashes or three dots, with a gap behind them. -/
def isDocumentMark (cs : List Char) : Bool :=
  (['-', '-', '-'].isPrefixOf cs || ['.', '.', '.'].isPrefixOf cs) && gapFollows (cs.drop 3)

/-- What the end of a line counts as: a line feed, but the two separators stay what they are. -/
def breakText (c : Char) : Char :=
  if c.toNat == 0x2028 || c.toNat == 0x2029 then c else '\n'

end TableDocs.Yaml
