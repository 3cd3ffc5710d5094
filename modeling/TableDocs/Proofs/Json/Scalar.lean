import TableDocs.Json.Printer
import TableDocs.Json.Token

/-!
# TableDocs — scalars of JSON, written and read

What the printer writes for a text or an integer is read back, whatever follows it:

* **`readString?_quoted`** — every character survives its escape, so every text survives its quotes.
* **`readNumber?_toDigits`** — the digits of a number, without a leading zero, are read as that
  number. What follows must not go on with the number: `EndsNumber`.
* **`read?_quote`, `read?_printInt`** — the tokens that quotes and integers give.
-/

namespace TableDocs.Json

open TableDocs.Data

namespace Token

/-! ## Text

The printer escapes the two characters that a quoted text cannot hold and the control characters.
Each escape is read back as its character, so the text is by induction. -/

/-- The four digits that are written for a control character are read as its number. -/
theorem unit?_hexDigit {n : Nat} (h : n < 0x20) :
    unit? '0' '0' (hexDigit (n / 16)) (hexDigit (n % 16)) = some n := by
  have all : ∀ n < 0x20, unit? '0' '0' (hexDigit (n / 16)) (hexDigit (n % 16)) = some n := by
    decide
  exact all n h

/-- A character that needs no escape is read as it stands. -/
theorem readString?_plain {c : Char} (hquote : c ≠ '"') (hbackslash : c ≠ '\\')
    (hprintable : ¬ c.toNat < 0x20) (cs : List Char) :
    readString? (c :: cs) = (readString? cs).map fun (text, after) => (c :: text, after) := by
  rw [readString?]
  · rw [if_neg (by simp [hprintable, hbackslash])]
  · exact hquote
  · rintro _ _ _ _ _ rfl
    exact absurd rfl hbackslash
  · rintro _ _ rfl
    exact absurd rfl hbackslash

/-- **Every character survives its escape.** -/
theorem readString?_escape (c : Char) (cs : List Char) :
    readString? (escape c ++ cs) =
      (readString? cs).map fun (text, after) => (c :: text, after) := by
  -- The cases are the escapes of the printer: the named ones, the digits and the character as it
  -- is.
  rw [escape.eq_def]
  split
  case h_8 hquote hbackslash hn hr ht hb hf =>
    split
    · -- a control character: four hexadecimal digits, which write no surrogate
      next hcontrol =>
      have hunit := unit?_hexDigit hcontrol
      have hlow : ¬ (0xD800 ≤ c.toNat && c.toNat < 0xDC00) = true := by
        simp only [Bool.and_eq_true, decide_eq_true_eq]
        omega
      have hhigh : ¬ (0xDC00 ≤ c.toNat && c.toNat < 0xE000) = true := by
        simp only [Bool.and_eq_true, decide_eq_true_eq]
        omega
      simp only [List.cons_append, List.nil_append]
      rw [readString?, hunit]
      simp only
      rw [if_neg hlow, if_neg hhigh, Char.ofNat_toNat]
    · next hprintable => exact readString?_plain hquote hbackslash hprintable cs
  all_goals simp [readString?, escapeChar?]

/-- **Every text survives its quotes.** -/
theorem readString?_quoted (text rest : List Char) :
    readString? (text.flatMap escape ++ '"' :: rest) = some (text, rest) := by
  induction text with
  | nil => rw [List.flatMap_nil, List.nil_append, readString?]
  | cons c text ih =>
    rw [List.flatMap_cons, List.append_assoc, readString?_escape, ih]
    rfl

/-! ## Integers

A number ends where its text cannot go on, so what follows it matters. The printer never puts
anything behind a number that could belong to it. -/

/-- The text does not go on with a number that stands before it. -/
def EndsNumber (cs : List Char) : Prop :=
  ∀ c ∈ cs.head?, c.isDigit = false ∧ c ≠ '.' ∧ c ≠ 'e' ∧ c ≠ 'E'

theorem endsNumber_cons {c : Char} {cs : List Char}
    (h : c.isDigit = false ∧ c ≠ '.' ∧ c ≠ 'e' ∧ c ≠ 'E') : EndsNumber (c :: cs) := by
  intro x hx
  cases hx
  exact h

/-- Writing a number in decimal and reading its digits gives the number. -/
theorem ofDigits_toDigits (n : Nat) : ofDigits (Nat.toDigits 10 n) = n := by
  have hdigits : Nat.ofDigitChars 10 (Nat.toDigits 10 n) 0 = n := Nat.ofDigitChars_ten_toDigits
  rw [Nat.ofDigitChars_eq_foldl] at hdigits
  rw [ofDigits]
  simpa only [Nat.mul_comm] using hdigits

theorem isDigit_of_mem_digits {n : Nat} {c : Char} (h : c ∈ Nat.toDigits 10 n) :
    c.isDigit = true :=
  Nat.isDigit_of_mem_toDigits (by decide) (by decide) h

/-- Only zero is written with a zero in front. -/
theorem eq_zero_of_head_toDigits {n : Nat} (h : (Nat.toDigits 10 n).head? = some '0') : n = 0 := by
  induction n using Nat.strongRecOn with
  | ind n ih =>
    by_cases hn : n < 10
    · rw [Nat.toDigits_of_lt_base hn, List.head?_cons, Option.some.injEq] at h
      exact Nat.digitChar_eq_zero.mp h
    · -- the digits of `n / 10` stand in front of the last digit of `n`
      obtain ⟨c, rest, hfront⟩ : ∃ c rest, Nat.toDigits 10 (n / 10) = c :: rest :=
        List.exists_cons_of_ne_nil Nat.toDigits_ne_nil
      rw [Nat.toDigits_of_base_le (by decide) (by omega), hfront, List.cons_append,
        List.head?_cons] at h
      have := ih (n / 10) (by omega) (by rw [hfront, List.head?_cons, h])
      omega

/-- The digits that are read are exactly those that were written. -/
theorem takeWhile_digits {n : Nat} {cs : List Char} (h : EndsNumber cs) :
    (Nat.toDigits 10 n ++ cs).takeWhile Char.isDigit = Nat.toDigits 10 n ∧
      (Nat.toDigits 10 n ++ cs).dropWhile Char.isDigit = cs := by
  rw [List.takeWhile_append_of_pos fun _ => isDigit_of_mem_digits,
    List.dropWhile_append_of_pos fun _ => isDigit_of_mem_digits]
  cases cs with
  | nil => simp
  | cons c cs =>
    have hc : c.isDigit = false := (h c rfl).1
    simp [hc]

/-- **The digits of a number are read as that number.** -/
theorem readNumber?_toDigits (negative : Bool) (n : Nat) {cs : List Char} (h : EndsNumber cs) :
    readNumber? negative (Nat.toDigits 10 n ++ cs) =
      some (.int (if negative then -(n : Int) else n), cs) := by
  obtain ⟨htake, hdrop⟩ := takeWhile_digits (n := n) h
  have hnonempty : (Nat.toDigits 10 n).isEmpty = false := by
    rw [List.isEmpty_eq_false_iff]
    exact Nat.toDigits_ne_nil
  -- a leading zero stands alone
  have hzero : ¬ ((Nat.toDigits 10 n).head? == some '0' &&
      decide ((Nat.toDigits 10 n).length > 1)) = true := by
    rw [Bool.and_eq_true, beq_iff_eq, decide_eq_true_eq]
    rintro ⟨hhead, hlength⟩
    rw [eq_zero_of_head_toDigits hhead, Nat.toDigits_zero] at hlength
    exact absurd hlength (by decide)
  have hfraction : readFraction? cs = some ([], cs) := by
    rw [readFraction?.eq_def]
    split
    · exact absurd rfl (h '.' rfl).2.1
    · rfl
  have hexponent : readExponent? cs = some (none, cs) := by
    cases cs with
    | nil => rfl
    | cons c cs =>
      obtain ⟨-, -, he, hE⟩ := h c rfl
      rw [readExponent?.eq_def]
      simp only
      rw [if_neg (by simp [he, hE])]
  -- no fraction and no exponent: the number is an integer
  rw [readNumber?]
  simp only [htake, hdrop]
  rw [hnonempty, Bool.false_or, if_neg hzero, hfraction]
  simp only [Option.bind_eq_bind, Option.bind_some, hexponent, ofDigits_toDigits]
  rfl

/-! ## The first token of a text

Each thing that the printer writes is one token or none: line breaks and indentation give none. -/

theorem ofText?_of_blank {c : Char} (h : isBlank c = true) (cs : List Char) :
    ofText? (c :: cs) = ofText? cs := by
  rw [ofText?, if_pos h]

/-- A first token, and the tokens of what follows it. -/
theorem ofText?_of_token (token : Token) {c : Char} {rest after : List Char}
    (hblank : isBlank c = false) (h : read? c rest = some (token, after)) :
    ofText? (c :: rest) = (ofText? after).map (token :: ·) := by
  rw [ofText?, if_neg (by simp [hblank])]
  split
  · next hnone => rw [h] at hnone; exact absurd hnone (by simp)
  · next hsome =>
    rw [h] at hsome
    cases hsome
    rfl

/-- Indentation, however deep, gives no token. -/
theorem ofText?_lineBreak (width : Int) (depth : Nat) (cs : List Char) :
    ofText? (lineBreak width depth ++ cs) = ofText? cs := by
  have spaces : ∀ n, ofText? (List.replicate n ' ' ++ cs) = ofText? cs := by
    intro n
    induction n with
    | zero => rfl
    | succ n ih => rw [List.replicate_succ, List.cons_append, ofText?_of_blank (by decide), ih]
  rw [lineBreak, List.cons_append, ofText?_of_blank (by decide), spaces]

/-- A quoted text is one token. -/
theorem ofText?_quote (s : String) (cs : List Char) :
    ofText? (quote s ++ cs) = (ofText? cs).map (scalar (.text s) :: ·) := by
  have hread : read? '"' (s.toList.flatMap escape ++ '"' :: cs) = some (scalar (.text s), cs) := by
    rw [read?]
    simp only
    rw [readString?_quoted, Option.map_some, String.ofList_toList]
  rw [quote]
  simp only [List.cons_append, List.append_assoc, List.nil_append]
  exact ofText?_of_token _ (by decide) hread

theorem printInt_natCast (n : Nat) : printInt n = Nat.toDigits 10 n := by
  rw [printInt, Int.toString_eq_repr, Int.repr_eq_if, if_pos (Int.natCast_nonneg n),
    Int.toNat_natCast, Nat.toList_repr]

theorem printInt_negSucc (n : Nat) : printInt (.negSucc n) = '-' :: Nat.toDigits 10 (n + 1) := by
  rw [printInt, Int.toString_eq_repr, Int.repr_eq_if, if_neg (by omega), String.toList_append,
    Nat.toList_repr, show (-Int.negSucc n).toNat = n + 1 by omega]
  rfl

/-- A digit starts a number, and is no blank. -/
theorem read?_of_isDigit {c : Char} (h : c.isDigit = true) (rest : List Char) :
    isBlank c = false ∧
      read? c rest = (readNumber? false (c :: rest)).map fun (v, after) => (scalar v, after) := by
  constructor
  · cases hblank : isBlank c with
    | false => rfl
    | true =>
      simp only [isBlank, Bool.or_eq_true, beq_iff_eq] at hblank
      rcases hblank with ((rfl | rfl) | rfl) | rfl
      all_goals exact absurd h (by decide)
  · rw [read?.eq_def]
    split
    all_goals first | rfl | exact absurd h (by decide)

/-- An integer is one token, where the text behind it does not go on with the number. -/
theorem ofText?_printInt (n : Int) {cs : List Char} (h : EndsNumber cs) :
    ofText? (printInt n ++ cs) = (ofText? cs).map (scalar (.int n) :: ·) := by
  cases n with
  | ofNat n =>
    show ofText? (printInt (n : Int) ++ cs) = _
    rw [printInt_natCast]
    obtain ⟨c, rest, hdigits⟩ : ∃ c rest, Nat.toDigits 10 n = c :: rest :=
      List.exists_cons_of_ne_nil Nat.toDigits_ne_nil
    have hmem : c ∈ Nat.toDigits 10 n := by
      rw [hdigits]
      exact List.mem_cons_self
    have hc : c.isDigit = true := isDigit_of_mem_digits hmem
    obtain ⟨hblank, hread⟩ := read?_of_isDigit hc (rest ++ cs)
    -- the first digit decides that a number is read, and it is read from that digit on
    rw [← List.cons_append, ← hdigits, readNumber?_toDigits false n h] at hread
    rw [hdigits, List.cons_append]
    exact ofText?_of_token _ hblank hread
  | negSucc n =>
    -- the sign is read first, and the digits behind it are those of the number without sign
    rw [printInt_negSucc, List.cons_append]
    refine ofText?_of_token _ (by decide) ?_
    rw [read?]
    simp only
    rw [readNumber?_toDigits true (n + 1) h]
    rfl

end Token

end TableDocs.Json
