import TableDocs.Files.Gbk
import TableDocs.Text.Blank

/-!
# TableDocs — text encodings

A file is a list of bytes, and an encoding says which text they are. Bytes that are no text give a
fault that tells where and why. Reading makes every line end a line feed.

These are the encodings that are known here; other names are refused, whatever a system may know
besides. UTF-16 is meant for files with a byte order mark: one without it is read low bytes first,
but a reader may as well give up on it, and nothing is said about a run in which it does.
-/

namespace TableDocs.Files

inductive Encoding
  | utf8
  /-- UTF-8 whose byte order mark is dropped. -/
  | utf8Marked
  | latin1
  | ascii
  | cp1252
  /-- UTF-16 in the byte order that a mark at its start tells. -/
  | utf16
  | utf16le
  | utf16be
  | gbk
  deriving DecidableEq, Repr

/-- Why bytes are no text: the codec, the first and last byte that is wrong, and the reason. -/
structure DecodeFault where
  codec : String
  first : Nat
  last : Nat
  /-- The byte at `first`. -/
  byte : Nat
  reason : String
  deriving DecidableEq, Repr

namespace DecodeFault

def hexByte (n : Nat) : String :=
  let digits := Nat.toDigits 16 n
  String.ofList (List.replicate (2 - digits.length) '0' ++ digits)

def message (f : DecodeFault) : String :=
  let place :=
    if f.first = f.last then "byte 0x" ++ hexByte f.byte ++ " in position " ++ toString f.first
    else "bytes in position " ++ toString f.first ++ "-" ++ toString f.last
  "'" ++ f.codec ++ "' codec can't decode " ++ place ++ ": " ++ f.reason

/-- The reason of a character that the end of the bytes cuts off. -/
def cutOff : String := "unexpected end of data"

/-- The fault as a reader reports it that takes a file in pieces: by then the bytes of a character
that is cut off are all that it has left, and their places are counted from the first of them. -/
def inPieces (f : DecodeFault) : DecodeFault :=
  if f.reason = cutOff then { f with first := 0, last := f.last - f.first } else f

end DecodeFault

namespace Encoding

/-- A name without what does not matter in it: letter case, and which marks part its words. -/
def normalizeName (name : String) : String :=
  let step (state : List Char × Bool) (c : Char) : List Char × Bool :=
    let (done, pending) := state
    if c.isAlphanum || c == '.' then
      (c.toLower :: (if pending && !done.isEmpty then '_' :: done else done), false)
    else (done, true)
  String.ofList (name.toList.foldl step ([], false)).1.reverse

/-- The names of each encoding. -/
def names : Encoding → List String
  | utf8 => ["utf_8", "u8", "utf", "utf8", "utf8_ucs2", "utf8_ucs4", "cp65001"]
  | utf8Marked => ["utf_8_sig"]
  | latin1 =>
    ["latin_1", "8859", "cp819", "csisolatin1", "ibm819", "iso8859", "iso8859_1", "iso_8859_1",
      "iso_8859_1_1987", "iso_ir_100", "l1", "latin", "latin1"]
  | ascii =>
    ["ascii", "646", "ansi_x3.4_1968", "ansi_x3_4_1968", "ansi_x3.4_1986", "cp367", "csascii",
      "ibm367", "iso646_us", "iso_646.irv_1991", "iso_ir_6", "us", "us_ascii"]
  | cp1252 => ["cp1252", "1252", "windows_1252"]
  | utf16 => ["utf_16", "u16", "utf16"]
  | utf16le => ["utf_16_le", "utf_16le", "unicodelittleunmarked"]
  | utf16be => ["utf_16_be", "utf_16be", "unicodebigunmarked"]
  | gbk => ["gbk", "936", "cp936", "ms936"]

def all : List Encoding :=
  [utf8, utf8Marked, latin1, ascii, cp1252, utf16, utf16le, utf16be, gbk]

/-- The encoding of a name; no name holds a zero character. -/
def ofName? (name : String) : Option Encoding :=
  if name.toList.contains '\x00' then none
  else all.find? fun e => e.names.contains (normalizeName name)

end Encoding

/-- What decoding gives. -/
abbrev Decoded := Except DecodeFault (List Char)

namespace Decode

/-- Puts a character before what follows. -/
def cons (c : Char) (rest : Decoded) : Decoded :=
  rest.map (c :: ·)

def isContinuation (b : Nat) : Bool :=
  0x80 ≤ b && b < 0xC0

/-- May `second` follow the lead byte of a character of three or four bytes? This leaves out longer
forms than needed, surrogates and numbers beyond the last code point. -/
def secondFits (lead second : Nat) : Bool :=
  isContinuation second &&
    (if lead == 0xE0 then 0xA0 ≤ second
    else if lead == 0xED then second < 0xA0
    else if lead == 0xF0 then 0x90 ≤ second
    else if lead == 0xF4 then second < 0x90
    else true)

/-- Reads UTF-8 from a position on. A wrong sequence is told by its longest part that starts a
character. -/
def utf8From (position : Nat) : List Nat → Decoded
  | [] => .ok []
  | a :: rest =>
    let fault (size : Nat) (reason : String) : Decoded :=
      .error ⟨"utf-8", position, position + size - 1, a, reason⟩
    let wrong := "invalid continuation byte"
    let short := DecodeFault.cutOff
    if a < 0x80 then cons (Char.ofNat a) (utf8From (position + 1) rest)
    else if a < 0xC2 || 0xF5 ≤ a then fault 1 "invalid start byte"
    else if a < 0xE0 then
      match rest with
      | [] => fault 1 short
      | b :: more =>
        if isContinuation b then
          cons (Char.ofNat ((a - 0xC0) * 64 + (b - 0x80))) (utf8From (position + 2) more)
        else fault 1 wrong
    else if a < 0xF0 then
      match rest with
      | [] => fault 1 short
      | [b] => if secondFits a b then fault 2 short else fault 1 wrong
      | b :: c :: more =>
        if !secondFits a b then fault 1 wrong
        else if !isContinuation c then fault 2 wrong
        else
          cons (Char.ofNat ((a - 0xE0) * 4096 + (b - 0x80) * 64 + (c - 0x80)))
            (utf8From (position + 3) more)
    else
      match rest with
      | [] => fault 1 short
      | [b] => if secondFits a b then fault 2 short else fault 1 wrong
      | [b, c] =>
        if !secondFits a b then fault 1 wrong
        else if isContinuation c then fault 3 short
        else fault 2 wrong
      | b :: c :: d :: more =>
        if !secondFits a b then fault 1 wrong
        else if !isContinuation c then fault 2 wrong
        else if !isContinuation d then fault 3 wrong
        else
          cons
            (Char.ofNat ((a - 0xF0) * 262144 + (b - 0x80) * 4096 + (c - 0x80) * 64 + (d - 0x80)))
            (utf8From (position + 4) more)

/-- Reads UTF-8 and drops the mark at its start. Bytes that only begin a mark are no text at all. -/
def utf8Marked : List Nat → Decoded
  | 0xEF :: 0xBB :: 0xBF :: rest => utf8From 0 rest
  | [0xEF] => .ok []
  | [0xEF, 0xBB] => .ok []
  | bytes => utf8From 0 bytes

/-- Reads bytes one by one by a partial map. -/
def byteWise (codec reason : String) (charOf? : Nat → Option Char) (position : Nat) :
    List Nat → Decoded
  | [] => .ok []
  | b :: rest =>
    match charOf? b with
    | some c => cons c (byteWise codec reason charOf? (position + 1) rest)
    | none => .error ⟨codec, position, position, b, reason⟩

def asciiChar? (b : Nat) : Option Char :=
  if b < 128 then some (Char.ofNat b) else none

/-- The characters of the bytes 0x80 to 0x9F in code page 1252; zero where there is none. -/
def cp1252High : List Nat :=
  [0x20AC, 0, 0x201A, 0x192, 0x201E, 0x2026, 0x2020, 0x2021, 0x2C6, 0x2030, 0x160, 0x2039, 0x152, 0,
    0x17D, 0, 0, 0x2018, 0x2019, 0x201C, 0x201D, 0x2022, 0x2013, 0x2014, 0x2DC, 0x2122, 0x161,
    0x203A, 0x153, 0, 0x17E, 0x178]

def cp1252Char? (b : Nat) : Option Char :=
  if 0x80 ≤ b && b < 0xA0 then
    match cp1252High[b - 0x80]? with
    | some 0 => none
    | some n => some (Char.ofNat n)
    | none => none
  else some (Char.ofNat b)

/-- The number of two bytes, the first of which counts less. -/
def lowFirst (a b : Nat) : Nat := b * 256 + a

/-- The number of two bytes, the first of which counts more. -/
def highFirst (a b : Nat) : Nat := a * 256 + b

/-- Reads UTF-16 from a position on. `number` tells the byte order. -/
def utf16From (codec : String) (number : Nat → Nat → Nat) (position : Nat) : List Nat → Decoded
  | [] => .ok []
  | [a] => .error ⟨codec, position, position, a, "truncated data"⟩
  | a :: b :: rest =>
    let unit := number a b
    let fault (size : Nat) (reason : String) : Decoded :=
      .error ⟨codec, position, position + size - 1, a, reason⟩
    if 0xDC00 ≤ unit && unit < 0xE000 then fault 2 "illegal encoding"
    else if 0xD800 ≤ unit && unit < 0xDC00 then
      match rest with
      | c :: d :: more =>
        let low := number c d
        if 0xDC00 ≤ low && low < 0xE000 then
          cons (Char.ofNat (0x10000 + (unit - 0xD800) * 0x400 + (low - 0xDC00)))
            (utf16From codec number (position + 4) more)
        else fault 2 "illegal UTF-16 surrogate"
      | _ => fault (2 + rest.length) DecodeFault.cutOff
    else cons (Char.ofNat unit) (utf16From codec number (position + 2) rest)

def utf16leFrom : Nat → List Nat → Decoded :=
  utf16From "utf-16-le" lowFirst

def utf16beFrom : Nat → List Nat → Decoded :=
  utf16From "utf-16-be" highFirst

/-- Reads UTF-16 whose byte order a mark at its start tells. -/
def utf16Marked : List Nat → Decoded
  | 0xFF :: 0xFE :: rest => utf16leFrom 2 rest
  | 0xFE :: 0xFF :: rest => utf16beFrom 2 rest
  | bytes => utf16leFrom 0 bytes

/-- Reads ASCII with characters of two bytes in between. -/
def gbkFrom (position : Nat) : List Nat → Decoded
  | [] => .ok []
  | a :: rest =>
    let fault (reason : String) : Decoded := .error ⟨"gbk", position, position, a, reason⟩
    if a < 0x80 then cons (Char.ofNat a) (gbkFrom (position + 1) rest)
    else
      match rest with
      | [] => fault "incomplete multibyte sequence"
      | b :: more =>
        match Gbk.char? a b with
        | some c => cons c (gbkFrom (position + 2) more)
        | none => fault "illegal multibyte sequence"

end Decode

/-- Makes a line feed of every line end: of both characters together, and of a carriage return. -/
def unifyLineEnds : List Char → List Char
  | [] => []
  | '\r' :: '\n' :: rest => '\n' :: unifyLineEnds rest
  | '\r' :: rest => '\n' :: unifyLineEnds rest
  | c :: rest => c :: unifyLineEnds rest

namespace Encoding

/-- The text of bytes. -/
def decode (e : Encoding) (bytes : List UInt8) : Except DecodeFault String :=
  let bytes := bytes.map UInt8.toNat
  let chars :=
    match e with
    | utf8 => Decode.utf8From 0 bytes
    | utf8Marked => Decode.utf8Marked bytes
    | latin1 => Decode.byteWise "latin-1" "" (fun b => some (Char.ofNat b)) 0 bytes
    | ascii => Decode.byteWise "ascii" "ordinal not in range(128)" Decode.asciiChar? 0 bytes
    | cp1252 =>
      Decode.byteWise "charmap" "character maps to <undefined>" Decode.cp1252Char? 0 bytes
    | utf16 => Decode.utf16Marked bytes
    | utf16le => Decode.utf16leFrom 0 bytes
    | utf16be => Decode.utf16beFrom 0 bytes
    | gbk => Decode.gbkFrom 0 bytes
  chars.map fun cs => String.ofList (unifyLineEnds cs)

end Encoding

/-- The bytes of a text in UTF-8. -/
def encodeUtf8 (s : String) : List UInt8 :=
  s.toUTF8.toList

end TableDocs.Files
