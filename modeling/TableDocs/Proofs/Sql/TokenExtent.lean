import TableDocs.Sql.Lexeme

/-!
# TableDocs — how much of a script a piece takes

Each reader of a piece says how many characters it took. None of them takes more than there are, and
a piece is never empty, so the walk through a script advances and stays inside it:

* **`Yields`**, **`Takes`** — what holds of a result if there is one, and a bound of its size.
* **`Piece.read_takes`** — a piece is no longer than what is left of the script.
* **`Phrase.Spelled`** — the rules of a dialect have no empty mark, which is why
* **`Piece.read_pos`** — a piece has a character.
-/

namespace TableDocs.Sql

/-- If there is a result, then it is as `P` says. -/
def Yields {α : Type} (P : α → Prop) (result : Except TokenFault α) : Prop :=
  ∀ a, result = .ok a → P a

namespace Yields

variable {α β : Type} {P : α → Prop}

/-- A fault has no result to be wrong about. -/
theorem error {fault : TokenFault} : Yields P (.error fault) := by
  intro a h
  exact absurd h (by simp)

theorem ok {a : α} (h : P a) : Yields P (.ok a) := by
  rintro _ ⟨⟩
  exact h

/-- A step behind a first reading holds of its result once it does for every value of that reading.
-/
theorem bind {x : Except TokenFault β} {f : β → Except TokenFault α}
    (h : ∀ b, x = .ok b → Yields P (f b)) : Yields P (x >>= f) := by
  cases x with
  | error fault => exact error
  | ok b => exact h b rfl

end Yields

/-- If there is a result, then its size is at most `most`. -/
abbrev Takes {α : Type} (size : α → Nat) (most : Nat) : Except TokenFault α → Prop :=
  Yields fun a => size a ≤ most

/-- A reading that goes on behind `n` more characters. -/
theorem Takes.behind {α β : Type} {most most' n : Nat} {x : Except TokenFault (β × Nat)}
    {f : β × Nat → α × Nat} (h : Takes Prod.snd most x) (hf : ∀ b, (f b).2 = b.2 + n)
    (hn : most + n ≤ most') : Takes Prod.snd most' (x.map f) := by
  cases x with
  | error fault => exact .error
  | ok b =>
    refine .ok ?_
    have := h b rfl
    rw [hf]
    omega

/-! ## Quoted stretches

The readers of a quoted stretch recurse along the characters that are left, so each bound is an
induction with the cases of the reader. A case that goes on adds the one or two characters it passed
over, a case that ends took at most what it saw, and the rest are faults. -/

namespace Escape

/-- At most as many digits are read as there are characters to read them from. -/
theorem length_hexDigitsOf_le (most : Nat) (cs : List Char) :
    (hexDigitsOf most cs).length ≤ cs.length := by
  rw [hexDigitsOf]
  have hfilter := List.length_filterMap_le hexValue?
    ((cs.take most).takeWhile fun c => (hexValue? c).isSome)
  have hwhile :=
    (List.takeWhile_sublist (l := cs.take most) fun c => (hexValue? c).isSome).length_le
  have htake := List.length_take_le' most cs
  omega

/-- A code point is spelled by a letter and its four or eight digits, all of them in the text. -/
theorem codePoint?_length {cs : List Char} {n length : Nat}
    (h : codePoint? cs = some (n, length)) : length ≤ cs.length := by
  rw [codePoint?.eq_def] at h
  split at h
  · next rest =>
    -- only as many digits are taken as there are
    have hdigits := length_hexDigitsOf_le 4 rest
    simp only at h
    split at h
    · next hfour =>
      cases h
      rw [beq_iff_eq] at hfour
      rw [List.length_cons]
      omega
    · exact absurd h (by simp)
  · next rest =>
    have hdigits := length_hexDigitsOf_le 8 rest
    simp only at h
    split at h
    · next height =>
      cases h
      rw [beq_iff_eq] at height
      rw [List.length_cons]
      omega
    · exact absurd h (by simp)
  · exact absurd h (by simp)

/-- A character is one code point, or the two of a surrogate pair. -/
theorem character?_length {cs : List Char} {c : Char} {length : Nat}
    (h : character? cs = some (c, length)) : length ≤ cs.length := by
  rw [character?] at h
  split at h
  · exact absurd h (by simp)
  · next n first hfirst =>
    have hle := codePoint?_length hfirst
    split at h
    · split at h
      · next more hdrop =>
        -- the second code point stands behind the first and a backslash
        have hlength := congrArg List.length hdrop
        rw [List.length_drop, List.length_cons] at hlength
        split at h
        · next low second hsecond =>
          have hle' := codePoint?_length hsecond
          split at h
          · obtain ⟨-, rfl⟩ := Prod.mk.inj (Option.some.inj h)
            omega
          · exact absurd h (by simp)
        · exact absurd h (by simp)
      · exact absurd h (by simp)
    · split at h
      · obtain ⟨-, rfl⟩ := Prod.mk.inj (Option.some.inj h)
        exact hle
      · exact absurd h (by simp)

/-- An escape takes the character behind the backslash and what belongs to it: octal digits, hex
digits, or the spelling of a code point. -/
theorem read_length (c : Char) (rest : List Char) : (read c rest).2 ≤ rest.length + 1 := by
  rw [read.eq_def]
  simp only
  split
  · have hwhile := (List.takeWhile_sublist (l := (c :: rest).take 3)
      fun d => '0' ≤ d && d ≤ '7').length_le
    have htake := List.length_take_le' 3 (c :: rest)
    rw [List.length_cons] at htake
    exact Nat.le_trans hwhile htake
  · split
    iterate 5 exact Nat.succ_le_succ (Nat.zero_le _)
    · split
      · exact Nat.succ_le_succ (Nat.zero_le _)
      · exact Nat.succ_le_succ (length_hexDigitsOf_le 2 rest)
    · split
      · next hcharacter => exact character?_length hcharacter
      · exact Nat.succ_le_succ (Nat.zero_le _)

end Escape

namespace Quoted

/-- A plain stretch, in which a doubled closer is the closer itself. -/
theorem readPlain_takes (closer : Char) (cs : List Char) :
    Takes Prod.snd cs.length (readPlain closer cs) := by
  fun_induction readPlain closer cs with
  | case1 => exact .error
  | case2 => exact .ok (Nat.le_refl 1)
  | case3 => exact .error
  | case4 => exact .ok (by simp)
  | case5 => exact .error
  | case6 d rest _ _ ih => exact ih.behind (fun _ => rfl) (by simp)
  | case7 c d rest _ ih => exact ih.behind (fun _ => rfl) (by simp)

/-- A stretch in which a backslash keeps the character behind it. -/
theorem readBackslash_takes (closer : Char) (cs : List Char) :
    Takes Prod.snd cs.length (readBackslash closer cs) := by
  fun_induction readBackslash closer cs with
  | case1 => exact .error
  | case2 => exact .ok (Nat.le_refl 1)
  | case3 => exact .error
  | case4 => exact .error
  | case5 d rest e _ _ ih => exact ih.behind (fun _ => rfl) (by simp)
  | case6 d rest _ _ ih => exact ih.behind (fun _ => rfl) (by simp)
  | case7 => exact .error
  | case8 d rest _ _ _ ih => exact ih.behind (fun _ => rfl) (by simp)
  | case9 => exact .error
  | case10 c d rest _ _ _ ih => exact ih.behind (fun _ => rfl) (by simp)
  | case11 => exact .ok (by simp)
  | case12 c d rest _ _ _ ih => exact ih.behind (fun _ => rfl) (by simp)

/-- A stretch in which a backslash starts an escape, whose length is the one case that is not fixed.
-/
theorem readValues_takes (closer : Char) (cs : List Char) :
    Takes Prod.snd cs.length (readValues closer cs) := by
  fun_induction readValues closer cs with
  | case1 => exact .error
  | case2 => exact .ok (Nat.le_refl 1)
  | case3 => exact .error
  | case4 => exact .error
  | case5 d rest _ value n hread ih =>
    have hn := Escape.read_length d rest
    rw [hread] at hn
    -- the backslash and an escape of n characters have been passed over
    refine ih.behind (n := n + 1) (fun _ => rfl) ?_
    rw [List.length_drop, List.length_cons, List.length_cons]
    simp only at hn
    omega
  | case6 => exact .ok (by simp)
  | case7 => exact .error
  | case8 d rest _ _ _ ih => exact ih.behind (fun _ => rfl) (by simp)
  | case9 c d rest _ _ ih => exact ih.behind (fun _ => rfl) (by simp)

/-- A stretch up to a mark of several characters, which is taken with it. -/
theorem readTo_takes (mark cs : List Char) : Takes Prod.snd cs.length (readTo mark cs) := by
  fun_induction readTo mark cs with
  | case1 => exact .error
  | case2 => exact .error
  | case3 rest _ ih => exact ih.behind (fun _ => rfl) (by simp)
  | case4 c rest _ hmark => exact .ok (List.isPrefixOf_iff_prefix.mp hmark).length_le
  | case5 c rest _ _ ih => exact ih.behind (fun _ => rfl) (by simp)

/-- Behind the opening mark the reader needs a character, and reads on from it. -/
theorem behindOpening_takes {read : List Char → Reading} {cs : List Char}
    (h : Takes Prod.snd cs.length (read cs)) :
    Takes Prod.snd cs.length (behindOpening read cs) := by
  rw [behindOpening]
  split
  · exact .error
  · exact h

theorem readBy_takes (quoting : Quoting) (closer : Char) (cs : List Char) :
    Takes Prod.snd cs.length (readBy quoting closer cs) := by
  cases quoting with
  | plain => exact readPlain_takes closer cs
  | backslash => exact readBackslash_takes closer cs
  | escaped => exact (readValues_takes closer cs).behind (n := 0) (fun _ => rfl) (Nat.le_refl _)

end Quoted

/-! ## Comments, phrases, numbers and words

What these readers give is a length, so the bounds are stated of it. A phrase is looked up among all
that match, and the longest of them is the one that counts. -/

theorem length_takeWhile_le {α : Type} (p : α → Bool) (as : List α) :
    (as.takeWhile p).length ≤ as.length :=
  (List.takeWhile_sublist p).length_le

/-- A block comment ends inside the text, however deep comments nest in it. -/
theorem Comment.blockLength?_le {opening close : List Char} {nested : Bool} {depth : Nat}
    {cs : List Char} {n : Nat} (h : blockLength? opening close nested depth cs = some n) :
    n ≤ cs.length := by
  fun_induction blockLength? opening close nested depth cs generalizing n with
  | case1 => exact absurd h (by simp)
  | case2 => exact absurd h (by simp)
  | case3 depth c rest _ hclose =>
    cases h
    exact (List.isPrefixOf_iff_prefix.mp (Bool.and_eq_true_iff.mp hclose).1).length_le
  | case4 =>
    next rest _ _ _ hnested ih =>
    obtain ⟨k, hk, rfl⟩ := Option.map_eq_some_iff.mp h
    -- the opening mark of an inner comment stands in the text, and is passed over as a whole
    have hopening := (List.isPrefixOf_iff_prefix.mp (Bool.and_eq_true_iff.mp hnested).2).length_le
    have := ih hk
    rw [List.length_drop] at this
    rw [List.length_cons]
    omega
  | case5 =>
    next rest _ _ _ _ ih =>
    obtain ⟨k, hk, rfl⟩ := Option.map_eq_some_iff.mp h
    have := ih hk
    rw [List.length_cons]
    omega

/-- A comment of a line ends before the line feed, one of a block behind its closing mark. -/
theorem Comment.read_takes (rules : LexRules) (opening : List Char) (extent : Extent)
    (after : List Char) : Takes id after.length (read rules opening extent after) := by
  cases extent with
  | line => exact .ok (length_takeWhile_le _ after)
  | block close =>
    rw [read.eq_def]
    simp only
    split
    · next n hn => exact .ok (blockLength?_le hn)
    · exact .error

/-- A phrase is matched inside the text, also where several blanks stand for one. -/
theorem Phrase.matchLength?_le {inBlanks : Bool} {phrase cs : List Char} {n : Nat}
    (h : matchLength? inBlanks phrase cs = some n) : n ≤ cs.length := by
  fun_induction matchLength? inBlanks phrase cs generalizing n with
  | case1 => cases h; exact Nat.zero_le _
  | case2 => exact absurd h (by simp)
  | case3 => cases h; exact Nat.zero_le _
  | case4 phrase c rest _ _ ih =>
    obtain ⟨k, hk, rfl⟩ := Option.map_eq_some_iff.mp h
    exact Nat.succ_le_succ (ih hk)
  | case5 inBlanks c rest _ _ more _ ih =>
    obtain ⟨k, hk, rfl⟩ := Option.map_eq_some_iff.mp h
    exact Nat.succ_le_succ (ih hk)
  | case6 => exact absurd h (by simp)
  | case7 inBlanks phrase c rest _ _ more _ ih =>
    obtain ⟨k, hk, rfl⟩ := Option.map_eq_some_iff.mp h
    exact Nat.succ_le_succ (ih hk)
  | case8 => exact absurd h (by simp)

/-- What decides is in the table and matches the text. -/
theorem Phrase.longest?_eq_some {rules : LexRules} {cs phrase : List Char} {opening : Opening}
    {n : Nat} (h : longest? rules cs = some (phrase, opening, n)) :
    (phrase, opening) ∈ table rules ∧ matchLength? false phrase cs = some n := by
  rw [longest?] at h
  revert h
  -- so is whatever is best so far
  refine List.foldlRecOn (motive := fun best => best = some (phrase, opening, n) →
    (phrase, opening) ∈ table rules ∧ matchLength? false phrase cs = some n)
    (table rules) _ (by simp) fun best hbest entry hentry h => ?_
  simp only at h
  split at h
  · exact hbest h
  · next k hk =>
    split at h
    · exact hbest h
    · split at h
      · split at h
        · cases h
          exact ⟨hentry, hk⟩
        · exact hbest h
      · cases h
        exact ⟨hentry, hk⟩

/-- So the longest match is inside the text as well. -/
theorem Phrase.longest?_le {rules : LexRules} {cs phrase : List Char} {opening : Opening} {n : Nat}
    (h : longest? rules cs = some (phrase, opening, n)) : n ≤ cs.length :=
  matchLength?_le (longest?_eq_some h).2

namespace Number

/-- The digits, the point and the exponent are counted one by one. -/
theorem length_le (pointAllowed : Bool) (exponent : ExponentState) (cs : List Char) :
    length pointAllowed exponent cs ≤ cs.length := by
  fun_induction length pointAllowed exponent cs with
  | case1 => exact Nat.le_refl 0
  | case2 pointAllowed exponent c rest _ ih => exact Nat.succ_le_succ ih
  | case3 exponent c rest _ _ ih => exact Nat.succ_le_succ ih
  | case4 => exact Nat.zero_le _
  | case5 pointAllowed exponent c rest _ _ _ _ ih => exact Nat.succ_le_succ ih
  | case6 => exact Nat.zero_le _
  | case7 pointAllowed exponent c rest _ _ _ _ ih => exact Nat.succ_le_succ ih
  | case8 => exact Nat.zero_le _

/-- A word ends where its characters do. -/
theorem wordLength_le (rules : LexRules) (cs : List Char) : wordLength rules cs ≤ cs.length :=
  length_takeWhile_le _ cs

/-- A number takes its digits and the letters stuck to them. -/
theorem size_read (rules : LexRules) (afterParameter : Bool) (c : Char) (rest : List Char) :
    (read rules afterParameter c rest).size ≤ rest.length + 1 := by
  -- a radix mark, and the word of digits behind it
  have hradix : ∀ base, (readRadix rules base rest).size ≤ rest.length + 1 := fun _ =>
    Nat.succ_le_succ (wordLength_le rules rest)
  -- the digits, and a word that belongs to them or begins with them
  have hdecimal : (readDecimal rules afterParameter rest).size ≤ rest.length + 1 := by
    rw [readDecimal]
    have hn := length_le (!afterParameter) .none rest
    have hmore := wordLength_le rules (rest.drop (length (!afterParameter) .none rest))
    rw [List.length_drop] at hmore
    simp only
    split <;> omega
  rw [read.eq_def]
  simp only
  split
  · split
    · exact hradix 2
    · exact Nat.succ_le_succ (Nat.zero_le _)
  · split
    · split
      · exact hradix 16
      · exact Nat.succ_le_succ (Nat.zero_le _)
    · exact hdecimal

/-- The first digit is always part of the number. -/
theorem size_pos (rules : LexRules) (afterParameter : Bool) (c : Char) (rest : List Char) :
    0 < (read rules afterParameter c rest).size := by
  rw [read.eq_def]
  simp only
  split
  · split <;> exact Nat.succ_pos _
  · split
    · split <;> exact Nat.succ_pos _
    · exact Nat.succ_pos _

end Number

/-! ## Pieces

The readers are tried in turn: a blank, a number, a quoted name, and then a mark, a literal, a
comment or a word. Each bound above enters once. -/

namespace Piece

/-- A literal is its opening mark, which was matched, and the stretch behind it. -/
theorem readLiteral_takes (form : StringForm) (n : Nat) (after : List Char) :
    Takes size (n + after.length) (readLiteral form n after) := by
  refine .bind fun (chars, taken) htaken => ?_
  have := Quoted.behindOpening_takes (Quoted.readBy_takes form.quoting _ after) _ htaken
  -- whatever the form of the literal does with its characters, the piece has this extent
  have hpiece : Takes size (n + after.length)
      (.ok ⟨n + taken, lineFeedsIn taken after, some (.literal (String.ofList chars))⟩) :=
    .ok (Nat.add_le_add_left this n)
  simp only
  split
  · split
    · exact hpiece
    · exact .error
  · split
    · exact hpiece
    · exact .error

/-- A dollar sign is a mark, opens a stretch up to the next two of them, or opens a tag. -/
theorem readDollar_takes (after : List Char) :
    Takes size (after.length + 1) (readDollar after) := by
  rw [readDollar.eq_def]
  split
  · exact .error
  · next rest =>
    refine .bind fun (chars, taken) htaken => .ok ?_
    have := Quoted.behindOpening_takes (Quoted.readTo_takes ['$', '$'] rest) _ htaken
    rw [List.length_cons]
    exact Nat.succ_le_succ (Nat.succ_le_succ this)
  · next hnil hdollar =>
    simp only
    split
    · exact .ok (Nat.succ_le_succ (Nat.zero_le _))
    · exact .error
    · next tag taken htag =>
      have htaken := Quoted.readTo_takes ['$'] after _ htag
      have hpos : 0 < after.length := List.length_pos_iff.mpr hnil
      simp only at htaken
      split
      · exact .ok (Nat.succ_le_succ hpos)
      · split
        · exact .ok (Nat.succ_le_succ (Nat.zero_le _))
        · refine .bind fun (chars, more) hmore => .ok ?_
          -- the text behind the tag is shorter by the tag
          have hle := Quoted.readTo_takes _ (after.drop taken) _ hmore
          rw [List.length_drop] at hle
          simp only at hle ⊢
          omega

/-- Whatever phrase is the longest, it was matched in the text, and what it opens is read behind it.
-/
theorem readMarkOrWord_takes (rules : LexRules) (last? : Option TokenKind) (c : Char)
    (rest : List Char) : Takes size (rest.length + 1) (readMarkOrWord rules last? c rest) := by
  have hword : ∀ afterParameter,
      (Word.read rules afterParameter c rest).size ≤ rest.length + 1 := fun _ =>
    Nat.succ_le_succ (length_takeWhile_le _ rest)
  -- where no phrase matches, a single mark or a word is left
  have hfallback : Takes size (rest.length + 1)
      (if isSingleMark rules c then .ok ⟨1, 0, some (markKind c)⟩
       else .ok (Word.read rules (last? == some (.words .parameterMark)) c rest)) := by
    split
    · exact .ok (Nat.succ_le_succ (Nat.zero_le _))
    · exact .ok (hword _)
  rw [readMarkOrWord]
  simp only
  split
  · exact readDollar_takes rest
  · split
    · next form n hlongest =>
      have hn := Phrase.longest?_le hlongest
      have hliteral := readLiteral_takes form n ((c :: rest).drop n)
      rw [List.length_drop] at hliteral
      rw [List.length_cons] at hn hliteral
      rwa [Nat.add_sub_cancel' hn] at hliteral
    · next mark extent n hlongest =>
      have hn := Phrase.longest?_le hlongest
      refine .bind fun taken htaken => .ok ?_
      have hle := Comment.read_takes rules mark extent _ taken htaken
      rw [List.length_drop] at hle
      rw [List.length_cons] at hn hle
      simp only [id_eq] at hle
      simp only
      omega
    · next phrase n hlongest =>
      have hn := Phrase.longest?_le hlongest
      split
      · exact .ok hn
      · exact hfallback
    · exact hfallback

/-- **A piece is no longer than what is left.** -/
theorem read_takes (rules : LexRules) (last? : Option TokenKind) (c : Char) (rest : List Char) :
    Takes size (rest.length + 1) (read rules last? c rest) := by
  rw [read]
  split
  · exact .ok (Nat.succ_le_succ (Nat.zero_le _))
  · split
    · exact .ok (Number.size_read rules _ c rest)
    · split
      · next closer _ =>
        refine .bind fun (chars, taken) htaken => .ok ?_
        exact Nat.succ_le_succ
          (Quoted.behindOpening_takes (Quoted.readPlain_takes closer rest) _ htaken)
      · exact readMarkOrWord_takes rules last? c rest

end Piece

/-! ## No piece is empty

Only a phrase could match nothing, and then only an empty one. No rules have such a phrase, which is
a look at their tables. -/

/-- No mark and no phrase of the rules is empty. -/
def Phrase.Spelled (rules : LexRules) : Prop :=
  ∀ entry ∈ table rules, entry.1 ≠ []

/-- No dialect has an empty mark. -/
theorem Phrase.spelled_rules (dialect : Dialect) : Spelled dialect.rules := by
  have h : ((table dialect.rules).all fun entry => !entry.1.isEmpty) = true := by
    cases dialect <;> decide +kernel
  intro entry hentry
  simpa using List.all_eq_true.mp h entry hentry

/-- A phrase with a character matches at least one. -/
theorem Phrase.matchLength?_pos {inBlanks : Bool} {phrase cs : List Char} {n : Nat}
    (h : matchLength? inBlanks phrase cs = some n) (hphrase : phrase ≠ []) : 0 < n := by
  have hempty : ¬phrase.isEmpty = true := by simpa using hphrase
  -- a match of the rest counts its first character besides
  have hcounts : ∀ matched : Option Nat, matched.map (· + 1) = some n → 0 < n := by
    intro matched hmatched
    obtain ⟨k, -, rfl⟩ := Option.map_eq_some_iff.mp hmatched
    exact Nat.succ_pos k
  rw [matchLength?.eq_def] at h
  cases cs with
  | nil =>
    simp only [if_neg hempty] at h
    exact absurd h (by simp)
  | cons c rest =>
    simp only [if_neg hempty] at h
    split at h
    · split at h
      · exact hcounts _ h
      · split at h
        · exact hcounts _ h
        · exact absurd h (by simp)
    · split at h
      · exact hcounts _ h
      · exact absurd h (by simp)

namespace Piece

variable {rules : LexRules}

/-- A literal has its opening mark. -/
theorem readLiteral_pos (form : StringForm) {n : Nat} (hn : 0 < n) (after : List Char) :
    Yields (0 < size ·) (readLiteral form n after) := by
  refine .bind fun (chars, taken) _ => ?_
  have hpiece : Yields (0 < size ·)
      (.ok ⟨n + taken, lineFeedsIn taken after, some (.literal (String.ofList chars))⟩) :=
    .ok (Nat.add_pos_left hn taken)
  simp only
  split
  · split
    · exact hpiece
    · exact .error
  · split
    · exact hpiece
    · exact .error

/-- What a dollar sign opens has the dollar sign. -/
theorem readDollar_pos (after : List Char) : Yields (0 < size ·) (readDollar after) := by
  rw [readDollar.eq_def]
  split
  · exact .error
  · exact .bind fun _ _ => .ok (Nat.succ_pos _)
  · simp only
    split
    · exact .ok Nat.one_pos
    · exact .error
    · split
      · exact .ok Nat.two_pos
      · split
        · exact .ok Nat.one_pos
        · exact .bind fun _ _ => .ok (by simp only; omega)

/-- A mark, a literal or a comment has the phrase that opened it, and a word its first character. -/
theorem readMarkOrWord_pos (hrules : Phrase.Spelled rules) (last? : Option TokenKind) (c : Char)
    (rest : List Char) : Yields (0 < size ·) (readMarkOrWord rules last? c rest) := by
  -- a single mark and a word take at least the first character
  have hfallback : Yields (0 < size ·)
      (if isSingleMark rules c then .ok ⟨1, 0, some (markKind c)⟩
       else .ok (Word.read rules (last? == some (.words .parameterMark)) c rest)) := by
    split
    · exact .ok Nat.one_pos
    · exact .ok (Nat.succ_pos _)
  -- no phrase of the rules is empty
  have hpos : ∀ {phrase opening n}, Phrase.longest? rules (c :: rest) = some (phrase, opening, n) →
      0 < n := fun h =>
    Phrase.matchLength?_pos (Phrase.longest?_eq_some h).2 (hrules _ (Phrase.longest?_eq_some h).1)
  rw [readMarkOrWord]
  simp only
  split
  · exact readDollar_pos rest
  · split
    · next hlongest => exact readLiteral_pos _ (hpos hlongest) _
    · next hlongest =>
      exact .bind fun taken _ => .ok (Nat.add_pos_left (hpos hlongest) taken)
    · next hlongest =>
      split
      · exact .ok (hpos hlongest)
      · exact hfallback
    · exact hfallback

/-- **A piece has a character.** -/
theorem read_pos (hrules : Phrase.Spelled rules) (last? : Option TokenKind) (c : Char)
    (rest : List Char) : Yields (0 < size ·) (read rules last? c rest) := by
  rw [read]
  split
  · exact .ok Nat.one_pos
  · split
    · exact .ok (Number.size_pos rules _ c rest)
    · split
      · exact .bind fun _ _ => .ok (Nat.succ_pos _)
      · exact readMarkOrWord_pos hrules last? c rest

end Piece

end TableDocs.Sql
