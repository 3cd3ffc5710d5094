import TableDocs.Sql.Token
import TableDocs.Text.RangeTable

/-!
# TableDocs — backslash sequences of literals

After a backslash a literal may name control characters, bytes or code points. Bytes that stand next
to each other are read as UTF-8; a byte that is no part of a character is the code point of its
number.
-/

namespace TableDocs.Sql.Escape

/-- What a sequence stands for. -/
inductive Value
  | char (c : Char)
  | byte (b : Nat)

/-- The value of a hexadecimal digit in either case. -/
def hexValue? (c : Char) : Option Nat :=
  if c.isDigit || ('a' ≤ c && c ≤ 'f') then some (Text.hexDigit c)
  else if 'A' ≤ c && c ≤ 'F' then some (Text.hexDigit c.toLower)
  else none

/-- The hexadecimal digits at the start of a text, `most` at most. -/
def hexDigitsOf (most : Nat) (cs : List Char) : List Nat :=
  ((cs.take most).takeWhile fun c => (hexValue? c).isSome).filterMap hexValue?

def ofDigits (base : Nat) (digits : List Nat) : Nat :=
  digits.foldl (fun n d => n * base + d) 0

/-- A code point written as `uXXXX` or `UXXXXXXXX`: its number and the length of its text. -/
def codePoint? : List Char → Option (Nat × Nat)
  | 'u' :: rest =>
    let ds := hexDigitsOf 4 rest
    if ds.length == 4 then some (ofDigits 16 ds, 5) else none
  | 'U' :: rest =>
    let ds := hexDigitsOf 8 rest
    if ds.length == 8 then some (ofDigits 16 ds, 9) else none
  | _ => none

def isHighSurrogate (n : Nat) : Bool :=
  0xD800 ≤ n && n < 0xDC00

def isLowSurrogate (n : Nat) : Bool :=
  0xDC00 ≤ n && n < 0xE000

/-- A character written as one code point or as two that are surrogates of each other, the second
with a backslash of its own. -/
def character? (cs : List Char) : Option (Char × Nat) :=
  match codePoint? cs with
  | none => none
  | some (n, length) =>
    if isHighSurrogate n then
      match cs.drop length with
      | '\\' :: more =>
        match codePoint? more with
        | some (low, lowLength) =>
          if isLowSurrogate low then
            some (Char.ofNat (0x10000 + (n - 0xD800) * 0x400 + (low - 0xDC00)),
              length + 1 + lowLength)
          else none
        | none => none
      | _ => none
    else if n < 0x110000 && !isLowSurrogate n then some (Char.ofNat n, length)
    else none

/-- Reads the sequence after a backslash, which `c` starts: its value and the length of its text.
What is no sequence loses its backslash. -/
def read (c : Char) (rest : List Char) : Value × Nat :=
  let octal := ((c :: rest).take 3).takeWhile fun d => '0' ≤ d && d ≤ '7'
  if !octal.isEmpty then
    (.byte (ofDigits 8 (octal.map Text.hexDigit) % 256), octal.length)
  else match c with
    | 'b' => (.char '\x08', 1)
    | 'f' => (.char '\x0C', 1)
    | 'n' => (.char '\n', 1)
    | 'r' => (.char '\r', 1)
    | 't' => (.char '\t', 1)
    | 'x' =>
      let ds := hexDigitsOf 2 rest
      if ds.isEmpty then (.char 'x', 1) else (.byte (ofDigits 16 ds), ds.length + 1)
    | _ =>
      match character? (c :: rest) with
      | some (d, length) => (.char d, length)
      | none => (.char c, 1)

def isContinuation (b : Nat) : Bool :=
  0x80 ≤ b && b < 0xC0

/-- The character that well-formed UTF-8 bytes start with, and how many bytes it takes. -/
def utf8First? : List Nat → Option (Char × Nat)
  | [] => none
  | a :: rest =>
    if a < 0x80 then some (Char.ofNat a, 1)
    else if 0xC2 ≤ a && a < 0xE0 then
      match rest with
      | b :: _ =>
        if isContinuation b then some (Char.ofNat ((a - 0xC0) * 64 + (b - 0x80)), 2) else none
      | _ => none
    else if 0xE0 ≤ a && a < 0xF0 then
      match rest with
      | b :: c :: _ =>
        let n := (a - 0xE0) * 4096 + (b - 0x80) * 64 + (c - 0x80)
        if isContinuation b && isContinuation c && 0x800 ≤ n && !(0xD800 ≤ n && n < 0xE000) then
          some (Char.ofNat n, 3)
        else none
      | _ => none
    else if 0xF0 ≤ a && a < 0xF5 then
      match rest with
      | b :: c :: d :: _ =>
        let n := (a - 0xF0) * 262144 + (b - 0x80) * 4096 + (c - 0x80) * 64 + (d - 0x80)
        if isContinuation b && isContinuation c && isContinuation d && 0x10000 ≤ n && n < 0x110000
        then some (Char.ofNat n, 4)
        else none
      | _ => none
    else none

/-- Reads bytes as UTF-8 where they are, and else each as the code point of its number. -/
def charsOfBytes : List Nat → List Char
  | [] => []
  | b :: rest =>
    match utf8First? (b :: rest) with
    | some (c, n) => c :: charsOfBytes (rest.drop (n - 1))
    | none => Char.ofNat b :: charsOfBytes rest
termination_by bs => bs.length
decreasing_by all_goals simp; try omega

/-- Joins values into text; `bytes` are the bytes under way, last one first. -/
def textFrom (bytes : List Nat) : List Value → List Char
  | [] => charsOfBytes bytes.reverse
  | .byte b :: rest => textFrom (b :: bytes) rest
  | .char c :: rest => charsOfBytes bytes.reverse ++ c :: textFrom [] rest

def text (values : List Value) : List Char :=
  textFrom [] values

end TableDocs.Sql.Escape
