import TableDocs.Proofs.Sql.ScanAccount
import TableDocs.Proofs.Sql.Slice
import TableDocs.Proofs.Text.Words

/-!
# TableDocs — where lexemes stand

A token is cut into lexemes that stand inside it. So the order in which tokens stand in their script
goes over to the lexemes, and no character is lost between the two.

* **`Ordered`**, **`WellPlaced`** — places in a script, one behind the other, and none empty.
* **`WordsAt`** — the words of a stretch with their places, one word at a time; `wordsAt_wordsFrom`
  says that cutting finds them.
* **`Token.CutInto`** — the two ways to cut a token: whole, or into words.
* **`ordered_ofTokens`**, **`faithful_ofTokens`** — what cutting keeps, for tokens in order.
* **`lexemes_well_placed`** — the same for tokens of which none is empty.
-/

namespace TableDocs.Sql

/-! ## Places

A place is a stretch of the script on a line. Everything about the order of tokens and lexemes is
said of their places, so it is said once. -/

/-- A stretch of a script, from `start` up to, not including, `stop`, with the line that it is told
to be on. -/
structure Place where
  start : Nat
  stop : Nat
  line : Nat
  deriving DecidableEq, Repr

def Token.place (t : Token) : Place :=
  ⟨t.start, t.stop, t.line⟩

def Lexeme.place (l : Lexeme) : Place :=
  ⟨l.start, l.stop, l.line⟩

namespace Place

/-- Does a position lie in the stretch? -/
def covers (i : Nat) (p : Place) : Bool :=
  p.start ≤ i && i < p.stop

/-- `p` ends before `q` starts, and on no later line. -/
structure Before (p q : Place) : Prop where
  apart : p.stop ≤ q.start
  lines : p.line ≤ q.line

instance : DecidableRel Before := fun p q =>
  decidable_of_iff (p.stop ≤ q.start ∧ p.line ≤ q.line)
    ⟨fun h => ⟨h.1, h.2⟩, fun h => ⟨h.apart, h.lines⟩⟩

/-- `p` is a part of `q` and told to be on the same line. -/
structure Inside (p q : Place) : Prop where
  start : q.start ≤ p.start
  stop : p.stop ≤ q.stop
  line : p.line = q.line

theorem Inside.refl (p : Place) : p.Inside p :=
  ⟨Nat.le_refl _, Nat.le_refl _, rfl⟩

theorem Inside.trans {p q r : Place} (h : p.Inside q) (h' : q.Inside r) : p.Inside r :=
  ⟨Nat.le_trans h'.start h.start, Nat.le_trans h.stop h'.stop, h.line.trans h'.line⟩

/-- Parts of two stretches stand as the stretches do. -/
theorem Before.of_inside {p p' q q' : Place} (h : p'.Before q') (hp : p.Inside p')
    (hq : q.Inside q') : p.Before q := by
  constructor
  · calc p.stop ≤ p'.stop := hp.stop
      _ ≤ q'.start := h.apart
      _ ≤ q.start := hq.start
  · rw [hp.line, hq.line]
    exact h.lines

/-- A place covers the positions from its start up to its stop. -/
theorem covers_iff {i : Nat} {p : Place} : p.covers i = true ↔ p.start ≤ i ∧ i < p.stop := by
  simp [covers]

/-- Of two stretches one behind the other a position lies in one at most. -/
theorem Before.covers_eq_false {p q : Place} {i : Nat} (h : p.Before q) (hp : p.covers i = true) :
    q.covers i = false := by
  have hapart : p.stop ≤ q.start := h.apart
  obtain ⟨-, hlt⟩ := covers_iff.mp hp
  rw [← Bool.not_eq_true, covers_iff]
  omega

end Place

/-- Places among the first `limit` characters, one behind the other. -/
structure Ordered (limit : Nat) (ps : List Place) : Prop where
  within : ∀ p ∈ ps, p.start ≤ p.stop ∧ p.stop ≤ limit
  inOrder : ps.Pairwise Place.Before

/-- Places in order, of which none is empty. -/
structure WellPlaced (limit : Nat) (ps : List Place) : Prop extends Ordered limit ps where
  nonempty : ∀ p ∈ ps, p.start < p.stop

/-! ## Words with their places

A token of several words is cut at its blanks. Each word knows where it began, which the function
that collects words carries along. -/

/-- The words of a stretch that starts at `offset`, each with its place. -/
inductive WordsAt (line : Nat) : Nat → List Char → List Lexeme → Prop
  | nil {offset : Nat} {gap : List Char} (hgap : ∀ c ∈ gap, Text.isBlank c = true) :
      WordsAt line offset gap []
  | cons {offset start stop : Nat} {gap w behind : List Char} {ls : List Lexeme}
      (hgap : ∀ c ∈ gap, Text.isBlank c = true) (hstart : start = offset + gap.length)
      (hw : Text.IsWord w) (hstop : stop = start + w.length)
      (hend : ∀ c ∈ behind.head?, Text.isBlank c = true) (hls : WordsAt line stop behind ls) :
      WordsAt line offset (gap ++ (w ++ behind))
        (⟨.word (String.ofList w), start, stop, line⟩ :: ls)

namespace WordsAt

variable {line offset : Nat} {cs : List Char} {ls : List Lexeme}

theorem cons_blank {c : Char} (hc : Text.isBlank c = true) (h : WordsAt line (offset + 1) cs ls) :
    WordsAt line offset (c :: cs) ls := by
  cases h with
  | nil hgap => exact .nil (List.forall_mem_cons.mpr ⟨hc, hgap⟩)
  | @cons _ start _ gap _ _ _ hgap hstart hw hstop hend hls =>
    have hstart' : start = offset + (c :: gap).length := by
      rw [List.length_cons]
      omega
    exact .cons (List.forall_mem_cons.mpr ⟨hc, hgap⟩) hstart' hw hstop hend hls

/-- The word under way ends in front of a blank or at the end of the stretch. -/
theorem flush_append {pending behind : List Char} (hpending : ∀ c ∈ pending, Text.isBlank c = false)
    (hend : ∀ c ∈ behind.head?, Text.isBlank c = true)
    (h : WordsAt line (offset + pending.length) behind ls) :
    WordsAt line offset (pending.reverse ++ behind)
      (Lexeme.wordsFrom.flush line (offset + pending.length) pending ++ ls) := by
  rw [Lexeme.wordsFrom.flush]
  split
  · next hempty =>
    obtain rfl := List.isEmpty_iff.mp hempty
    exact h
  · next hne =>
    -- the characters collected so far, last one first, are a word
    have hword : Text.IsWord pending.reverse := Text.isWord_reverse hpending hne
    have hstart : offset + pending.length - pending.length = offset + ([] : List Char).length := by
      rw [Nat.add_sub_cancel, List.length_nil, Nat.add_zero]
    have hstop : offset + pending.length = offset + pending.length - pending.length +
        pending.reverse.length := by
      rw [List.length_reverse]
      omega
    exact .cons (List.forall_mem_nil _) hstart hword hstop hend h

/-- **Cutting finds the words**, with `pending` in front of what is still to be read: the word under
way starts that many characters before the place where the reader stands. -/
theorem wordsAt_wordsFrom {pending : List Char} (hpending : ∀ c ∈ pending, Text.isBlank c = false)
    (cs : List Char) :
    WordsAt line offset (pending.reverse ++ cs)
      (Lexeme.wordsFrom line (offset + pending.length) pending cs) := by
  induction cs generalizing offset pending with
  -- On the text that is left; what was collected stands in front of it.
  | nil =>
    have hend : WordsAt line (offset + pending.length) [] [] := .nil (List.forall_mem_nil _)
    have h := flush_append hpending (by simp) hend
    rwa [List.append_nil (Lexeme.wordsFrom.flush ..)] at h
  | cons c rest ih =>
    rw [Lexeme.wordsFrom]
    split
    · next hc =>
      -- a blank ends the word, and collecting starts anew behind it
      have hrest : WordsAt line (offset + pending.length) (c :: rest)
          (Lexeme.wordsFrom line (offset + pending.length + 1) [] rest) :=
        cons_blank hc (ih (List.forall_mem_nil _))
      exact flush_append hpending (by simpa using hc) hrest
    · next hc =>
      have hpending' : ∀ d ∈ c :: pending, Text.isBlank d = false :=
        List.forall_mem_cons.mpr ⟨by simpa using hc, hpending⟩
      -- a character goes from the text to the word
      have hword : WordsAt line offset ((c :: pending).reverse ++ rest)
          (Lexeme.wordsFrom line (offset + pending.length + 1) (c :: pending) rest) := ih hpending'
      rwa [List.reverse_cons, List.append_assoc] at hword

/-- The words lie inside the text they were collected from. -/
theorem inside (h : WordsAt line offset cs ls) : ∀ l ∈ ls,
    l.start < l.stop ∧ l.place.Inside ⟨offset, offset + cs.length, line⟩ := by
  induction h with
  | nil => exact List.forall_mem_nil _
  | @cons offset start stop gap w behind ls hgap hstart hw hstop hend hls ih =>
    -- the word takes room, and the gap before it may
    have hpos : 0 < w.length := List.length_pos_iff.mpr hw.ne_nil
    have hfrom : offset ≤ start := by omega
    have hspan : start < stop := by omega
    have hto : stop + behind.length = offset + (gap ++ (w ++ behind)).length := by
      rw [List.length_append, List.length_append]
      omega
    refine List.forall_mem_cons.mpr ⟨⟨hspan, hfrom, ?_, rfl⟩, fun l hl => ?_⟩
    · show stop ≤ offset + (gap ++ (w ++ behind)).length
      omega
    · obtain ⟨hlt, hinside⟩ := ih l hl
      have hbehind : offset ≤ stop := by omega
      exact ⟨hlt, hinside.trans ⟨hbehind, Nat.le_of_eq hto, rfl⟩⟩

theorem inOrder (h : WordsAt line offset cs ls) : (ls.map Lexeme.place).Pairwise Place.Before := by
  induction h with
  | nil => exact .nil
  | @cons offset start stop gap w behind ls hgap hstart hw hstop hend hls ih =>
    rw [List.map_cons, List.pairwise_cons]
    refine ⟨List.forall_mem_map.mpr fun l hl => ?_, ih⟩
    obtain ⟨-, hfrom, -, hline⟩ := hls.inside l hl
    exact ⟨hfrom, Nat.le_of_eq hline.symm⟩

/-- A word stands in its place. -/
theorem spelled {script : Array Char} (h : WordsAt line offset cs ls) {behind : List Char}
    (hcs : script.toList.drop offset = cs ++ behind) :
    ∀ l ∈ ls, ∃ w, Text.IsWord w ∧ l.kind = .word (String.ofList w) ∧
      slice script l.start l.stop = w := by
  induction h with
  | nil => exact List.forall_mem_nil _
  | @cons offset start stop gap w rest ls hgap hstart hw hstop hend hls ih =>
    -- the script is read on, first past the gap and then past the word
    rw [List.append_assoc, List.append_assoc] at hcs
    have hword : script.toList.drop start = w ++ (rest ++ behind) := by
      rw [hstart]
      exact drop_of_drop hcs
    have hrest : script.toList.drop stop = rest ++ behind := by
      rw [hstop]
      exact drop_of_drop hword
    refine List.forall_mem_cons.mpr ⟨⟨w, hw, rfl, ?_⟩, ih hrest⟩
    simp only
    rw [hstop]
    exact slice_of_drop hword

theorem not_mem_gap {gap : List Char} {c : Char} (hgap : ∀ c ∈ gap, Text.isBlank c = true)
    (hc : Text.isBlank c = false) : c ∉ gap := by
  intro hmem
  rw [hgap c hmem] at hc
  exact absurd hc (by decide)

/-- A character that is not blank lies in a word. -/
theorem exists_covers (h : WordsAt line offset cs ls) {j : Nat} {c : Char} (hj : cs[j]? = some c)
    (hc : Text.isBlank c = false) : ∃ l ∈ ls, l.place.covers (offset + j) = true := by
  induction h generalizing j with
  | nil hgap => exact absurd (List.mem_of_getElem? hj) (not_mem_gap hgap hc)
  | @cons offset start stop gap w behind ls hgap hstart hw hstop hend hls ih =>
    have hnotgap : gap.length ≤ j := by
      by_contra hlt
      rw [List.getElem?_append_left (Nat.lt_of_not_le hlt)] at hj
      exact not_mem_gap hgap hc (List.mem_of_getElem? hj)
    rw [List.getElem?_append_right hnotgap] at hj
    -- behind the gap it is in this word or in one of the next
    by_cases hword : j - gap.length < w.length
    · refine ⟨_, List.mem_cons_self, Place.covers_iff.mpr ?_⟩
      simp only [Lexeme.place]
      omega
    · rw [List.getElem?_append_right (Nat.le_of_not_lt hword)] at hj
      obtain ⟨l, hl, hcovers⟩ := ih hj
      have hposition : stop + (j - gap.length - w.length) = offset + j := by omega
      rw [hposition] at hcovers
      exact ⟨l, List.mem_cons_of_mem _ hl, hcovers⟩

/-- The texts of the words are the words of the text. -/
theorem texts (h : WordsAt line offset cs ls) : ∃ ws, Text.WordsOf ws cs ∧
    ls.map Lexeme.kind = ws.map fun w => .word (String.ofList w) := by
  induction h with
  | nil hgap => exact ⟨[], .nil hgap, rfl⟩
  | @cons offset start stop gap w behind ls hgap hstart hw hstop hend hls ih =>
    obtain ⟨ws, hws, hkinds⟩ := ih
    refine ⟨w :: ws, .cons hgap hw hend hws, ?_⟩
    rw [List.map_cons, List.map_cons, hkinds]

end WordsAt

/-! ## Tokens

A token becomes one lexeme, or one for each of its words. In either case the lexemes lie inside the
token, in order, and cover all of it but the blanks. -/

/-- How a token is cut: it is one lexeme, or the words in it are. -/
inductive Token.CutInto (script : Array Char) (t : Token) : List Lexeme → Prop
  | whole {kind : LexemeKind} (hwords : ∀ role, t.kind ≠ .words role)
      (hword : ∀ text, kind ≠ .word text) : CutInto script t [⟨kind, t.start, t.stop, t.line⟩]
  | words {role : WordRole} {ls : List Lexeme} (hkind : t.kind = .words role)
      (hls : WordsAt t.line t.start (slice script t.start t.stop) ls) : CutInto script t ls

theorem Lexeme.cutInto_ofToken (script : Array Char) (t : Token) :
    t.CutInto script (ofToken script t) := by
  rw [ofToken.eq_def]
  cases hkind : t.kind with
  | words role => exact .words hkind (WordsAt.wordsAt_wordsFrom (List.forall_mem_nil _) _)
  | _ => exact .whole (by simp [hkind]) (by simp)

namespace Token.CutInto

variable {script : Array Char} {t : Token} {ls : List Lexeme}

theorem inside (h : t.CutInto script ls) (ht : t.start ≤ t.stop) :
    ∀ l ∈ ls, l.place.Inside t.place := by
  cases h with
  | whole => exact List.forall_mem_singleton.mpr (Place.Inside.refl t.place)
  | words hkind hls =>
    intro l hl
    obtain ⟨-, hinside⟩ := hls.inside l hl
    exact hinside.trans ⟨Nat.le_refl _, length_slice_le script ht, rfl⟩

/-- Only a lexeme that is the whole token can be empty. -/
theorem spans (h : t.CutInto script ls) :
    ∀ l ∈ ls, l.start < l.stop ∨ l.isWord = false ∧ l.start = t.start ∧ l.stop = t.stop := by
  cases h with
  | @whole kind hwords hword =>
    refine List.forall_mem_singleton.mpr (.inr ⟨?_, rfl, rfl⟩)
    cases kind with
    | word text => exact absurd rfl (hword text)
    | _ => rfl
  | words hkind hls => exact fun l hl => .inl (hls.inside l hl).1

theorem inOrder (h : t.CutInto script ls) : (ls.map Lexeme.place).Pairwise Place.Before := by
  cases h with
  | whole => exact List.pairwise_singleton _ _
  | words hkind hls => exact hls.inOrder

theorem spelled (h : t.CutInto script ls) {l : Lexeme} (hl : l ∈ ls) {text : String}
    (htext : l.kind = .word text) :
    text.toList = slice script l.start l.stop ∧ ∀ c ∈ text.toList, Text.isBlank c = false := by
  cases h with
  | whole hwords hword =>
    rw [List.mem_singleton.mp hl] at htext
    exact absurd htext (hword text)
  | words hkind hls =>
    -- the words were collected from the slice of their token
    have hcs : script.toList.drop t.start =
        slice script t.start t.stop ++ (script.toList.drop t.start).drop (t.stop - t.start) := by
      rw [slice_eq_take, List.take_append_drop]
    obtain ⟨w, hw, hkind', hslice⟩ := hls.spelled hcs l hl
    rw [hkind'] at htext
    cases htext
    rw [String.toList_ofList]
    exact ⟨hslice.symm, hw.noBlank⟩

/-- Each character of a token that is no blank is in one of its lexemes. -/
theorem exists_covers (h : t.CutInto script ls) {i : Nat} {c : Char}
    (hi : t.place.covers i = true) (hchar : script[i]? = some c) (hc : Text.isBlank c = false) :
    ∃ l ∈ ls, l.place.covers i = true := by
  cases h with
  | whole => exact ⟨_, List.mem_singleton.mpr rfl, hi⟩
  | words hkind hls =>
    obtain ⟨hstart, hstop⟩ := Place.covers_iff.mp hi
    simp only [Token.place] at hstart hstop
    have hj : (slice script t.start t.stop)[i - t.start]? = some c := by
      rw [getElem?_slice hstart hstop, hchar]
    obtain ⟨l, hl, hcovers⟩ := hls.exists_covers hj hc
    rw [Nat.add_sub_cancel' hstart] at hcovers
    exact ⟨l, hl, hcovers⟩

/-- The lexemes of a token of words are its words. -/
theorem texts (h : t.CutInto script ls) {role : WordRole} (hrole : t.kind = .words role) :
    ∃ ws, Text.WordsOf ws (slice script t.start t.stop) ∧
      ls.map Lexeme.kind = ws.map fun w => .word (String.ofList w) := by
  cases h with
  | whole hwords => exact absurd hrole (hwords role)
  | words hkind hls => exact hls.texts

end Token.CutInto

/-! ## Lists of tokens

Tokens that are well placed keep apart, and each has its lexemes inside. So the lexemes of all of
them are well placed too. -/

/-- What becomes of the characters of tokens when they are cut into lexemes. -/
structure Faithful (script : Array Char) (tokens : List Token) : Prop where
  /-- Every lexeme is a part of a token. -/
  inside : ∀ l ∈ Lexeme.ofTokens script tokens, ∃ t ∈ tokens, l.place.Inside t.place
  /-- The text of a word is what stands in its place, without a blank. -/
  spelled : ∀ l ∈ Lexeme.ofTokens script tokens, ∀ text, l.kind = .word text →
    text.toList = slice script l.start l.stop ∧ ∀ c ∈ text.toList, Text.isBlank c = false
  /-- A character of a token that is not blank lies in exactly one lexeme. -/
  once : ∀ t ∈ tokens, ∀ i c, t.place.covers i = true → script[i]? = some c →
    Text.isBlank c = false →
    (Lexeme.ofTokens script tokens).countP (fun l => l.place.covers i) = 1
  /-- A token of words is cut into its words, which hold all its characters but the blanks, in
  order. -/
  split : ∀ t ∈ tokens, ∀ role, t.kind = .words role → ∃ ws,
    Text.WordsOf ws (slice script t.start t.stop) ∧
      (Lexeme.ofToken script t).map Lexeme.kind = (ws.map fun w => .word (String.ofList w)) ∧
      ws.flatten = (slice script t.start t.stop).filter fun c => !Text.isBlank c

section Tokens

variable {script : Array Char} {tokens : List Token}

theorem inside_of_mem_ofToken (h : Ordered script.size (tokens.map Token.place)) {t : Token}
    (ht : t ∈ tokens) : ∀ l ∈ Lexeme.ofToken script t, l.place.Inside t.place :=
  (Lexeme.cutInto_ofToken script t).inside (h.within _ (List.mem_map_of_mem ht)).1

/-- **Lexemes of tokens in order** are in order. -/
theorem ordered_ofTokens (h : Ordered script.size (tokens.map Token.place)) :
    Ordered script.size ((Lexeme.ofTokens script tokens).map Lexeme.place) := by
  constructor
  · refine List.forall_mem_map.mpr fun l hl => ?_
    obtain ⟨t, ht, hl⟩ := List.mem_flatMap.mp hl
    obtain ⟨hspan, hlimit⟩ := h.within _ (List.mem_map_of_mem ht)
    have hinside := inside_of_mem_ofToken h ht l hl
    refine ⟨?_, Nat.le_trans hinside.stop hlimit⟩
    rcases (Lexeme.cutInto_ofToken script t).spans l hl with hlt | ⟨-, hstart, hstop⟩
    · exact Nat.le_of_lt hlt
    · show l.start ≤ l.stop
      rw [hstart, hstop]
      exact hspan
  · rw [Lexeme.ofTokens, List.map_flatMap, List.pairwise_flatMap]
    refine ⟨fun t _ => (Lexeme.cutInto_ofToken script t).inOrder, ?_⟩
    -- lexemes of two tokens stand as the tokens do
    refine (List.pairwise_map.mp h.inOrder).imp_of_mem fun ht ht' hbefore => ?_
    refine List.forall_mem_map.mpr fun l hl => List.forall_mem_map.mpr fun l' hl' => ?_
    exact hbefore.of_inside (inside_of_mem_ofToken h ht l hl) (inside_of_mem_ofToken h ht' l' hl')

/-- **Cutting is faithful** for tokens in order, even where some are empty. -/
theorem faithful_ofTokens (h : Ordered script.size (tokens.map Token.place)) :
    Faithful script tokens where
  inside l hl := by
    obtain ⟨t, ht, hl⟩ := List.mem_flatMap.mp hl
    exact ⟨t, ht, inside_of_mem_ofToken h ht l hl⟩
  spelled l hl text htext := by
    obtain ⟨t, -, hl⟩ := List.mem_flatMap.mp hl
    exact (Lexeme.cutInto_ofToken script t).spelled hl htext
  once t ht i c hi hchar hc := by
    obtain ⟨l, hl, hcovers⟩ := (Lexeme.cutInto_ofToken script t).exists_covers hi hchar hc
    -- one lexeme covers the position, and lexemes that keep apart do not share it
    refine countP_eq_one ?_ ⟨l, List.mem_flatMap.mpr ⟨t, ht, hl⟩, hcovers⟩
    exact (List.pairwise_map.mp (ordered_ofTokens h).inOrder).imp fun hbefore =>
      hbefore.covers_eq_false
  split t _ role hrole := by
    obtain ⟨ws, hws, hkinds⟩ := (Lexeme.cutInto_ofToken script t).texts hrole
    exact ⟨ws, hws, hkinds, hws.flatten_eq⟩

/-- No lexeme of a token with a character is empty. -/
theorem nonempty_ofTokens (h : ∀ t ∈ tokens, t.start < t.stop) :
    ∀ l ∈ Lexeme.ofTokens script tokens, l.start < l.stop := by
  intro l hl
  obtain ⟨t, ht, hl⟩ := List.mem_flatMap.mp hl
  rcases (Lexeme.cutInto_ofToken script t).spans l hl with hlt | ⟨-, hstart, hstop⟩
  · exact hlt
  · rw [hstart, hstop]
    exact h t ht

end Tokens

/-- **Lexemes are well placed** where tokens are, and together they hold what the tokens hold. -/
theorem lexemes_well_placed (script : Array Char) {tokens : List Token}
    (h : WellPlaced script.size (tokens.map Token.place)) :
    WellPlaced script.size ((Lexeme.ofTokens script tokens).map Lexeme.place) ∧
      Faithful script tokens := by
  have hordered : Ordered script.size (tokens.map Token.place) := h.toOrdered
  have hnonempty : ∀ t ∈ tokens, t.start < t.stop := List.forall_mem_map.mp h.nonempty
  refine ⟨⟨ordered_ofTokens hordered, ?_⟩, faithful_ofTokens hordered⟩
  exact List.forall_mem_map.mpr (nonempty_ofTokens hnonempty)

/-- Two phrases that are one token each, one of them over two lines, and a name with a blank. -/
def phraseText : String := "a CHARACTER \n SET x,\nPRIMARY KEY (`b c`)"

def phraseTokens : List Token :=
  [⟨.words .plain, 0, 1, 1⟩, ⟨.words .plain, 2, 17, 1⟩, ⟨.words .plain, 18, 19, 1⟩,
    ⟨.punct .comma, 19, 20, 1⟩, ⟨.words .plain, 21, 32, 2⟩, ⟨.punct .openParen, 33, 34, 2⟩,
    ⟨.name "b c", 34, 39, 2⟩, ⟨.punct .closeParen, 39, 40, 2⟩]

def phraseLexemes : List Lexeme :=
  [⟨.word "a", 0, 1, 1⟩, ⟨.word "CHARACTER", 2, 11, 1⟩, ⟨.word "SET", 14, 17, 1⟩,
    ⟨.word "x", 18, 19, 1⟩, ⟨.punct .comma, 19, 20, 1⟩, ⟨.word "PRIMARY", 21, 28, 2⟩,
    ⟨.word "KEY", 29, 32, 2⟩, ⟨.punct .openParen, 33, 34, 2⟩, ⟨.name "b c", 34, 39, 2⟩,
    ⟨.punct .closeParen, 39, 40, 2⟩]

theorem lexemes_well_placed_phrases :
    tokenize .mysql phraseText.toList = .ok phraseTokens ∧
      WellPlaced phraseText.toList.toArray.size (phraseTokens.map Token.place) ∧
      Lexeme.ofTokens phraseText.toList.toArray phraseTokens = phraseLexemes ∧
      WellPlaced phraseText.toList.toArray.size (phraseLexemes.map Lexeme.place) ∧
      Faithful phraseText.toList.toArray phraseTokens := by
  have htokens : WellPlaced phraseText.toList.toArray.size (phraseTokens.map Token.place) :=
    ⟨⟨by decide +kernel, by decide⟩, by decide⟩
  have hlexemes : Lexeme.ofTokens phraseText.toList.toArray phraseTokens = phraseLexemes := by
    decide +kernel
  have h := lexemes_well_placed phraseText.toList.toArray htokens
  rw [hlexemes] at h
  exact ⟨by decide +kernel, htokens, hlexemes, h⟩

end TableDocs.Sql
