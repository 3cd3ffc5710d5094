import TableDocs.Data.Value

/-!
# TableDocs — tokens of JSON

A JSON text is cut into marks and scalars. Only the four blank characters of the format separate
tokens, and strings hold no raw control characters and no surrogate without its partner.
-/

namespace TableDocs.Json

open TableDocs.Data

inductive Token
  | openList
  | closeList
  | openObject
  | closeObject
  | colon
  | comma
  | scalar (v : Value)

namespace Token

def isBlank (c : Char) : Bool :=
  c == ' ' || c == '\t' || c == '\n' || c == '\r'

/-- The value of a hexadecimal digit in either case. -/
def hexValue? (c : Char) : Option Nat :=
  if '0' ≤ c && c ≤ '9' then some (c.toNat - '0'.toNat)
  else if 'a' ≤ c && c ≤ 'f' then some (c.toNat - 'a'.toNat + 10)
  else if 'A' ≤ c && c ≤ 'F' then some (c.toNat - 'A'.toNat + 10)
  else none

/-- The number that four hexadecimal digits write. -/
def unit? (a b c d : Char) : Option Nat := do
  return (((← hexValue? a) * 16 + (← hexValue? b)) * 16 + (← hexValue? c)) * 16 + (← hexValue? d)

/-- The character of a letter after a backslash. -/
def escapeChar? : Char → Option Char
  | '"' => some '"'
  | '\\' => some '\\'
  | '/' => some '/'
  | 'b' => some '\x08'
  | 'f' => some '\x0C'
  | 'n' => some '\n'
  | 'r' => some '\r'
  | 't' => some '\t'
  | _ => none

/-- Reads the characters of a string behind its opening quote: the text and the rest behind the
closing quote. -/
def readString? : List Char → Option (List Char × List Char)
  | [] => none
  | '"' :: rest => some ([], rest)
  | '\\' :: 'u' :: a :: b :: c :: d :: rest =>
    match unit? a b c d with
    | none => none
    | some n =>
      if 0xD800 ≤ n && n < 0xDC00 then
        match rest with
        | '\\' :: 'u' :: a' :: b' :: c' :: d' :: more =>
          match unit? a' b' c' d' with
          | none => none
          | some low =>
            if 0xDC00 ≤ low && low < 0xE000 then
              (readString? more).map fun (text, after) =>
                (Char.ofNat (0x10000 + (n - 0xD800) * 0x400 + (low - 0xDC00)) :: text, after)
            else none
        | _ => none
      else if 0xDC00 ≤ n && n < 0xE000 then none
      else (readString? rest).map fun (text, after) => (Char.ofNat n :: text, after)
  | '\\' :: c :: rest =>
    match escapeChar? c with
    | none => none
    | some e => (readString? rest).map fun (text, after) => (e :: text, after)
  | c :: rest =>
    if c.toNat < 0x20 || c == '\\' then none
    else (readString? rest).map fun (text, after) => (c :: text, after)

/-- The number that digits write. -/
def ofDigits (digits : List Char) : Nat :=
  digits.foldl (fun n d => n * 10 + (d.toNat - '0'.toNat)) 0

/-- Reads the fraction of a number: its digits, none where there is no point. -/
def readFraction? : List Char → Option (List Char × List Char)
  | '.' :: rest =>
    let digits := rest.takeWhile Char.isDigit
    if digits.isEmpty then none else some (digits, rest.dropWhile Char.isDigit)
  | cs => some ([], cs)

/-- Reads the exponent of a number; none where there is no letter. -/
def readExponent? : List Char → Option (Option Int × List Char)
  | c :: rest =>
    if c == 'e' || c == 'E' then
      let (negative, unsigned) :=
        match rest with
        | '+' :: more => (false, more)
        | '-' :: more => (true, more)
        | _ => (false, rest)
      let digits := unsigned.takeWhile Char.isDigit
      if digits.isEmpty then none
      else
        let n : Int := ofDigits digits
        some (some (if negative then -n else n), unsigned.dropWhile Char.isDigit)
    else some (none, c :: rest)
  | [] => some (none, [])

/-- Reads a number without its sign. A number with a fraction or an exponent is no integer, whatever
its value; no further digit follows a leading zero. -/
def readNumber? (negative : Bool) (cs : List Char) : Option (Value × List Char) :=
  let digits := cs.takeWhile Char.isDigit
  if digits.isEmpty || (digits.head? == some '0' && digits.length > 1) then none
  else do
    let (fraction, rest) ← readFraction? (cs.dropWhile Char.isDigit)
    let (exponent?, rest) ← readExponent? rest
    if fraction.isEmpty && exponent?.isNone then
      let n : Int := ofDigits digits
      return (.int (if negative then -n else n), rest)
    else
      let mantissa := ofDigits (digits ++ fraction)
      return (.real (.ofDecimal negative mantissa (exponent?.getD 0 - fraction.length)), rest)

/-- Takes a word off the front. -/
def dropWord? : List Char → List Char → Option (List Char)
  | [], cs => some cs
  | w :: ws, c :: cs => if w == c then dropWord? ws cs else none
  | _ :: _, [] => none

/-- Reads the token that starts with `c`, which is no blank. -/
def read? (c : Char) (rest : List Char) : Option (Token × List Char) :=
  match c with
  | '[' => some (openList, rest)
  | ']' => some (closeList, rest)
  | '\x7b' => some (openObject, rest)
  | '\x7d' => some (closeObject, rest)
  | ':' => some (colon, rest)
  | ',' => some (comma, rest)
  | '"' => (readString? rest).map fun (text, after) => (scalar (.text (String.ofList text)), after)
  | '-' => (readNumber? true rest).map fun (v, after) => (scalar v, after)
  | 't' => (dropWord? ['r', 'u', 'e'] rest).map fun after => (scalar (.bool true), after)
  | 'f' => (dropWord? ['a', 'l', 's', 'e'] rest).map fun after => (scalar (.bool false), after)
  | 'n' => (dropWord? ['u', 'l', 'l'] rest).map fun after => (scalar .null, after)
  | _ => (readNumber? false (c :: rest)).map fun (v, after) => (scalar v, after)

theorem length_of_readString? {cs text rest : List Char} (h : readString? cs = some (text, rest)) :
    rest.length ≤ cs.length := by
  fun_induction readString? cs generalizing text <;>
    simp_all only [Option.map_eq_some_iff, Option.some.injEq, Prod.mk.injEq, Prod.exists,
      List.length_cons, reduceCtorEq] <;>
    grind

theorem length_dropWhile_le (p : Char → Bool) (cs : List Char) :
    (cs.dropWhile p).length ≤ cs.length :=
  (List.dropWhile_suffix p).length_le

theorem length_of_readFraction? {cs digits rest : List Char}
    (h : readFraction? cs = some (digits, rest)) : rest.length ≤ cs.length := by
  unfold readFraction? at h
  split at h
  · rename_i more
    have := length_dropWhile_le Char.isDigit more
    grind
  · grind

theorem length_of_readExponent? {cs rest : List Char} {exponent? : Option Int}
    (h : readExponent? cs = some (exponent?, rest)) : rest.length ≤ cs.length := by
  unfold readExponent? at h
  split at h
  · rename_i c more
    split at h
    · split at h
      rename_i negative unsigned hu
      have h1 : unsigned.length ≤ more.length := by
        split at hu <;> grind
      have h2 := length_dropWhile_le Char.isDigit unsigned
      grind
    · grind
  · grind

theorem length_of_readNumber? {negative : Bool} {cs rest : List Char} {v : Value}
    (h : readNumber? negative cs = some (v, rest)) : rest.length + 1 ≤ cs.length := by
  unfold readNumber? at h
  simp only at h
  split at h
  · simp at h
  · rename_i hd
    have hdigits : (cs.dropWhile Char.isDigit).length + 1 ≤ cs.length := by
      have h1 := congrArg List.length
        (List.takeWhile_append_dropWhile (p := Char.isDigit) (l := cs))
      rw [List.length_append] at h1
      have h2 : (cs.takeWhile Char.isDigit).length ≠ 0 := by
        intro h0
        simp [List.length_eq_zero_iff.1 h0] at hd
      omega
    obtain ⟨⟨fraction, r1⟩, hf, h⟩ := Option.bind_eq_some_iff.1 h
    obtain ⟨⟨exponent?, r2⟩, he, h⟩ := Option.bind_eq_some_iff.1 h
    have h1 := length_of_readFraction? hf
    have h2 := length_of_readExponent? he
    grind

theorem length_of_dropWord? {word cs rest : List Char} (h : dropWord? word cs = some rest) :
    rest.length ≤ cs.length := by
  fun_induction dropWord? word cs <;> grind

/-- A token takes its first character at least. -/
theorem length_of_read? {c : Char} {cs rest : List Char} {token : Token}
    (h : read? c cs = some (token, rest)) : rest.length ≤ cs.length := by
  unfold read? at h
  split at h <;>
    simp only [Option.map_eq_some_iff, Option.some.injEq, Prod.mk.injEq, Prod.exists] at h
  all_goals first
    | (obtain ⟨_, rfl⟩ := h; exact Nat.le_refl _)
    | (obtain ⟨_, _, hs, _, rfl⟩ := h
       exact length_of_readString? hs)
    | (obtain ⟨_, _, hs, _, rfl⟩ := h
       have := length_of_readNumber? hs
       grind)
    | (obtain ⟨_, hs, _, rfl⟩ := h
       exact length_of_dropWord? hs)

/-- The tokens of a text; none when it cannot be cut into tokens. -/
def ofText? (cs : List Char) : Option (List Token) :=
  match cs with
  | [] => some []
  | c :: rest =>
    if isBlank c then ofText? rest
    else match _h : read? c rest with
      | none => none
      | some (token, after) => (ofText? after).map (token :: ·)
termination_by cs.length
decreasing_by
  · simp
  · have := length_of_read? _h
    simp only [List.length_cons]
    omega

end Token

end TableDocs.Json
