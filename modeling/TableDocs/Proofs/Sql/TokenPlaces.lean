import TableDocs.Proofs.Sql.LexemePlaces
import TableDocs.Proofs.Sql.TokenExtent

/-!
# TableDocs — where tokens stand

The walk that cuts a script into tokens adds up the sizes of its pieces. So it finds tokens in the
order of their places, on lines that never decrease:

* **`ReadUpTo`** — what has been found when the walk stands at an offset: one constructor for each
  way of going on. The statement of a command is the only token that can be empty, for its place
  begins behind the spaces at its end.
* **`LexState.Walked`**, **`LexState.Walked.push`** — every piece leaves the walk in such a state.
* **`ordered_of_tokenize`**, **`start_lt_of_tokenize`** — the tokens of a script are in order, and
  none of them is empty but for that exception.
* **`lexemes_of_script`** — so cutting a script into lexemes is faithful to its tokens.
* **`wellPlaced_of_ofScript`** — and without commands no lexeme is empty.
-/

namespace TableDocs.Sql

/-! ## The walk

The walk keeps the tokens it has read, last one first, and the offset and line it has reached.
Everything that it read stands in front of that place, in order, and this is kept by each step. -/

/-- Tokens, last one first, that are known at an offset and on a line. -/
inductive ReadUpTo : Nat → Nat → List Token → Prop
  | nothing : ReadUpTo 0 1 []
  | skipped {offset offset' line line' : Nat} {tokens : List Token}
      (h : ReadUpTo offset line tokens) (hoffset : offset ≤ offset') (hline : line ≤ line') :
      ReadUpTo offset' line' tokens
  | token {kind : TokenKind} {start stop line line' : Nat} {tokens : List Token}
      (h : ReadUpTo start line tokens) (hspan : start < stop) (hline : line ≤ line') :
      ReadUpTo stop line' (⟨kind, start, stop, line'⟩ :: tokens)
  | statement {text : String} {start stop line line' : Nat} {command : Token} {tokens : List Token}
      (h : ReadUpTo start line (command :: tokens)) (hcommand : command.kind = .words .command)
      (hspan : start ≤ stop) (hline : line ≤ line') :
      ReadUpTo stop line' (⟨.literal text, start, stop, line'⟩ :: command :: tokens)

/-- The token has ended at an offset and on a line. -/
structure Token.Ended (offset line : Nat) (t : Token) : Prop where
  span : t.start ≤ t.stop
  stop : t.stop ≤ offset
  line : t.line ≤ line

theorem Token.Ended.mono {offset offset' line line' : Nat} {t : Token} (h : t.Ended offset line)
    (hoffset : offset ≤ offset') (hline : line ≤ line') : t.Ended offset' line' :=
  ⟨h.span, Nat.le_trans h.stop hoffset, Nat.le_trans h.line hline⟩

namespace ReadUpTo

variable {offset line : Nat} {tokens : List Token}

theorem ended (h : ReadUpTo offset line tokens) : ∀ t ∈ tokens, t.Ended offset line := by
  induction h with
  | nothing => exact List.forall_mem_nil _
  | skipped h hoffset hline ih => exact fun t ht => (ih t ht).mono hoffset hline
  | token h hspan hline ih =>
    refine List.forall_mem_cons.mpr ⟨⟨Nat.le_of_lt hspan, Nat.le_refl _, Nat.le_refl _⟩, ?_⟩
    exact fun t ht => (ih t ht).mono (Nat.le_of_lt hspan) hline
  | statement h hcommand hspan hline ih =>
    refine List.forall_mem_cons.mpr ⟨⟨hspan, Nat.le_refl _, Nat.le_refl _⟩, ?_⟩
    exact fun t ht => (ih t ht).mono hspan hline

/-- What was read stands in front of what starts here or later. -/
theorem before (h : ReadUpTo offset line tokens) {t : Token} (hoffset : offset ≤ t.start)
    (hline : line ≤ t.line) : ∀ t' ∈ tokens, t'.place.Before t.place := by
  intro t' ht'
  have hended : t'.Ended t.start t.line := (h.ended t' ht').mono hoffset hline
  exact ⟨hended.stop, hended.line⟩

/-- Tokens that were read follow each other. -/
theorem inOrder (h : ReadUpTo offset line tokens) :
    tokens.Pairwise fun later t => t.place.Before later.place := by
  induction h with
  | nothing => exact .nil
  | skipped h hoffset hline ih => exact ih
  | token h hspan hline ih => exact .cons (h.before (Nat.le_refl _) hline) ih
  | statement h hcommand hspan hline ih => exact .cons (h.before (Nat.le_refl _) hline) ih

/-- An empty token is the statement of the command right before it. -/
theorem start_lt_or_statement (h : ReadUpTo offset line tokens) {later earlier : List Token}
    {t : Token} (ht : tokens = later ++ t :: earlier) :
    t.start < t.stop ∨ (∃ text, t.kind = .literal text) ∧
      ∃ command ∈ earlier.head?, command.kind = .words .command := by
  induction h generalizing later with
  | nothing => exact absurd ht (by simp)
  | skipped h hoffset hline ih => exact ih ht
  | token h hspan hline ih =>
    -- the token in question was read last, or it was there before
    cases later with
    | nil =>
      cases ht
      exact .inl hspan
    | cons l later =>
      cases ht
      exact ih rfl
  | @statement text start stop line line' command tokens h hcommand hspan hline ih =>
    cases later with
    | nil =>
      cases ht
      exact .inr ⟨⟨text, rfl⟩, command, rfl, hcommand⟩
    | cons l later => exact ih (List.cons.inj ht).2

end ReadUpTo

/-- What is known inside the statement of a command: the tokens up to the command. -/
structure CommandText.Walked (offset line : Nat) (o : CommandText) : Prop where
  start : o.lastStart ≤ offset
  before : ReadUpTo o.lastStart line o.before
  command : ∃ command earlier, o.before = command :: earlier ∧ command.kind = .words .command

/-- A further piece of the statement. -/
theorem CommandText.Walked.moved {offset offset' start line line' : Nat} {o : CommandText}
    (h : o.Walked offset line) (text : List Char) (hstart : offset ≤ start)
    (hoffset : start ≤ offset') (hline : line ≤ line') :
    ({ o with text, lastStart := start } : CommandText).Walked offset' line' where
  start := hoffset
  before := h.before.skipped (Nat.le_trans h.start hstart) hline
  command := h.command

namespace LexState

/-- What the walk knows between two pieces. -/
structure Walked (s : LexState) : Prop where
  tokens : ReadUpTo s.offset s.line s.tokens
  command : ∀ o, s.command? = some o → o.Walked s.offset s.line

variable {s : LexState}

theorem offset_closeCommand (s : LexState) : s.closeCommand.offset = s.offset := by
  rw [closeCommand]
  split <;> rfl

/-- The walk advances by the size of the piece. -/
theorem offset_push (s : LexState) (piece : Piece) (cs : List Char) :
    (s.push piece cs).offset = s.offset + piece.size := by
  rw [push]
  simp only
  split
  · split
    · exact offset_closeCommand _
    · rfl
  · rfl

theorem walked_initial : initial.Walked :=
  ⟨.nothing, fun _ ho => absurd ho (by simp [initial])⟩

theorem Walked.closeCommand (h : s.Walked) : s.closeCommand.Walked := by
  rw [LexState.closeCommand]
  split
  · exact h
  · next o ho =>
    obtain ⟨hstart, hbefore, command, earlier, hcons, hcommand⟩ := h.command o ho
    refine ⟨?_, fun _ ho' => absurd ho' (by simp)⟩
    simp only
    split
    · exact hbefore.skipped hstart (Nat.le_refl _)
    · rw [hcons] at hbefore ⊢
      exact .statement hbefore hcommand hstart (Nat.le_refl _)

/-- A piece with a character can be put behind the tokens that were read. -/
theorem Walked.tokens_push (h : s.Walked) {piece : Piece} (hpiece : 0 < piece.size) :
    ReadUpTo (s.offset + piece.size) (s.line + piece.lineEnds)
      (match piece.kind? with
        | some kind => ⟨kind, s.offset, s.offset + piece.size, s.line + piece.lineEnds⟩ :: s.tokens
        | none => s.tokens) := by
  split
  · exact .token h.tokens (Nat.lt_add_of_pos_right hpiece) (Nat.le_add_right _ _)
  · exact h.tokens.skipped (Nat.le_add_right _ _) (Nat.le_add_right _ _)

/-- **A piece moves the walk on.** -/
theorem Walked.push (h : s.Walked) {piece : Piece} (hpiece : 0 < piece.size) (cs : List Char) :
    (s.push piece cs).Walked := by
  have htokens := h.tokens_push hpiece
  rw [LexState.push]
  simp only
  split
  · -- inside the statement of a command, whose last piece is now this one
    next o ho =>
    have hmoved : ∀ o', some { o with
          text := (cs.take piece.size).reverse ++ o.text
          lastStart := if cs.head? == some ' ' || cs.head? == some '\t' then s.offset + piece.size
            else s.offset } = some o' →
        o'.Walked (s.offset + piece.size) (s.line + piece.lineEnds) := by
      rintro _ ⟨⟩
      refine (h.command o ho).moved _ ?_ ?_ (Nat.le_add_right _ _)
      · split <;> omega
      · split <;> omega
    split
    · exact closeCommand ⟨htokens, hmoved⟩
    · exact ⟨htokens, hmoved⟩
  · -- the statement of a command begins behind the command
    refine ⟨htokens, fun o ho => ?_⟩
    simp only at ho
    split at ho
    · next hopens =>
      obtain ⟨⟨hkind, -⟩, -⟩ : (piece.kind? = some (.words .command) ∧ _) ∧ _ := by
        simpa using hopens
      cases ho
      rw [hkind] at htokens ⊢
      exact ⟨Nat.le_refl _, htokens, _, _, rfl, rfl⟩
    · exact absurd ho (by simp)

end LexState

/-- The walk keeps its tokens in order up to the end of the script. -/
theorem readUpTo_of_tokenizeFrom {rules : LexRules} (hrules : Phrase.Spelled rules) {s : LexState}
    {cs : List Char} {tokens : List Token} (hs : s.Walked)
    (h : tokenizeFrom rules s cs = .ok tokens) :
    ∃ line, ReadUpTo (s.offset + cs.length) line tokens.reverse := by
  -- The cases are the end of the text, a piece that cannot be read, and a piece that is pushed.
  fun_induction tokenizeFrom rules s cs with
  | case1 s =>
    cases h
    have hclosed := hs.closeCommand.tokens
    rw [LexState.offset_closeCommand] at hclosed
    rw [List.reverse_reverse]
    exact ⟨_, hclosed⟩
  | case2 s c rest piece hread ih =>
    have hpos := Piece.read_pos hrules _ c rest piece hread
    have hsize := Piece.read_takes rules _ c rest piece hread
    obtain ⟨line, hline⟩ := ih (hs.push hpos _) h
    have hoffset : s.offset + piece.size + (rest.length - (piece.size - 1)) =
        s.offset + (rest.length + 1) := by omega
    rw [LexState.offset_push, List.length_drop, hoffset] at hline
    exact ⟨line, hline⟩
  | case3 => exact absurd h (by simp)
  | case4 => exact absurd h (by simp)

/-! ## Tokens of a script

The walk starts with nothing read and stops at the end of the script. So the tokens are well placed
in it, whatever rules they were read by. -/

section Tokens

variable {dialect : Dialect} {script : List Char} {tokens : List Token}

theorem readUpTo_of_tokenize (h : tokenize dialect script = .ok tokens) :
    ∃ line, ReadUpTo script.length line tokens.reverse := by
  obtain ⟨line, hline⟩ :=
    readUpTo_of_tokenizeFrom (Phrase.spelled_rules dialect) LexState.walked_initial h
  rw [show LexState.initial.offset = 0 from rfl, Nat.zero_add] at hline
  exact ⟨line, hline⟩

/-- **Tokens are in order.** -/
theorem ordered_of_tokenize (h : tokenize dialect script = .ok tokens) :
    Ordered script.length (tokens.map Token.place) := by
  obtain ⟨line, hline⟩ := readUpTo_of_tokenize h
  constructor
  · refine List.forall_mem_map.mpr fun t ht => ?_
    have hended : t.Ended script.length line := hline.ended t (List.mem_reverse.mpr ht)
    exact ⟨hended.span, hended.stop⟩
  · exact List.pairwise_map.mpr (List.pairwise_reverse.mp hline.inOrder)

/-- **Tokens are not empty**, but for the statement of a command. -/
theorem start_lt_of_tokenize (h : tokenize dialect script = .ok tokens)
    {earlier later : List Token} {t : Token} (ht : tokens = earlier ++ t :: later) :
    t.start < t.stop ∨ (∃ text, t.kind = .literal text) ∧
      ∃ command ∈ earlier.getLast?, command.kind = .words .command := by
  obtain ⟨line, hline⟩ := readUpTo_of_tokenize h
  have hreverse : tokens.reverse = later.reverse ++ t :: earlier.reverse := by
    rw [ht, List.reverse_append, List.reverse_cons, List.append_assoc, List.singleton_append]
  rw [← List.head?_reverse]
  exact hline.start_lt_or_statement hreverse

/-- Behind the spaces at the end of its statement a command leaves an empty place. -/
example : tokenize .general "SHOW a ;".toList =
    .ok [⟨.words .command, 0, 4, 1⟩, ⟨.literal "a", 7, 7, 1⟩, ⟨.punct .semicolon, 7, 8, 1⟩] := by
  decide +kernel

/-- **Tokens are well placed** in a script without commands. -/
theorem wellPlaced_of_tokenize (h : tokenize dialect script = .ok tokens)
    (hcommand : ∀ t ∈ tokens, t.kind ≠ .words .command) :
    WellPlaced script.length (tokens.map Token.place) := by
  refine ⟨ordered_of_tokenize h, List.forall_mem_map.mpr fun t ht => ?_⟩
  obtain ⟨earlier, later, hsplit⟩ := List.append_of_mem ht
  rcases start_lt_of_tokenize h hsplit with hlt | ⟨-, command, hlast, hkind⟩
  · exact hlt
  · have hmem : command ∈ tokens := by
      rw [hsplit]
      exact List.mem_append_left _ (List.mem_of_getLast? hlast)
    exact absurd hkind (hcommand command hmem)

end Tokens

/-! ## Lexemes of a script

A lexeme lies inside its token. So the lexemes of a script are well placed because its tokens are.
-/

namespace Lexeme

variable {dialect : Dialect} {script : Array Char} {ls : List Lexeme}

/-- **The lexemes of a script** are those of its tokens, in order and with the same characters. -/
theorem lexemes_of_script (h : ofScript dialect script = .ok ls) :
    ∃ tokens, tokenize dialect script.toList = .ok tokens ∧ ls = ofTokens script tokens ∧
      Ordered script.size (ls.map place) ∧ Faithful script tokens := by
  change (tokenize dialect script.toList).map (ofTokens script) = .ok ls at h
  cases htokens : tokenize dialect script.toList with
  | error fault =>
    rw [htokens] at h
    exact absurd h (by simp [Except.map])
  | ok tokens =>
    rw [htokens] at h
    cases h
    have hordered : Ordered script.size (tokens.map Token.place) := ordered_of_tokenize htokens
    exact ⟨tokens, rfl, rfl, ordered_ofTokens hordered, faithful_ofTokens hordered⟩

/-- **The lexemes of a script without commands** are well placed. -/
theorem wellPlaced_of_ofScript {tokens : List Token}
    (htokens : tokenize dialect script.toList = .ok tokens)
    (hcommand : ∀ t ∈ tokens, t.kind ≠ .words .command) :
    WellPlaced script.size ((ofTokens script tokens).map place) := by
  have hplaced : WellPlaced script.size (tokens.map Token.place) :=
    wellPlaced_of_tokenize htokens hcommand
  refine ⟨ordered_ofTokens hplaced.toOrdered, List.forall_mem_map.mpr ?_⟩
  exact nonempty_ofTokens (List.forall_mem_map.mp hplaced.nonempty)

/-- **Lexemes end inside the script.** -/
theorem stop_le_of_ofScript (h : ofScript dialect script = .ok ls) :
    ∀ l ∈ ls, l.stop ≤ script.size := by
  obtain ⟨-, -, -, hordered, -⟩ := lexemes_of_script h
  intro l hl
  exact (hordered.within _ (List.mem_map_of_mem hl)).2

/-- **Words are not empty.** -/
theorem start_lt_of_ofScript (h : ofScript dialect script = .ok ls) :
    ∀ l ∈ ls, l.isWord = true → l.start < l.stop := by
  obtain ⟨tokens, -, rfl, -, -⟩ := lexemes_of_script h
  intro l hl hword
  obtain ⟨t, -, hl⟩ := List.mem_flatMap.mp hl
  rcases (cutInto_ofToken script t).spans l hl with hlt | ⟨hother, -, -⟩
  · exact hlt
  · rw [hword] at hother
    exact absurd hother (by decide)

/-- **Lines never decrease.** -/
theorem lines_of_ofScript (h : ofScript dialect script = .ok ls) :
    ls.Pairwise fun l l' => l.line ≤ l'.line := by
  obtain ⟨-, -, -, hordered, -⟩ := lexemes_of_script h
  exact (List.pairwise_map.mp hordered.inOrder).imp fun hbefore => hbefore.lines

end Lexeme

end TableDocs.Sql
